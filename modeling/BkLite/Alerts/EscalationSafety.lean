import BkLite.Alerts.Cells
import BkLite.Framework.Runs

/-!
# Safety of the escalation chain

Runs of the escalation machinery: operators assign, acknowledge, reassign, close
and resolve alerts, other jobs end alerts, assignments are edited, and
`check_and_process_escalations` scans at arbitrary, non-decreasing times. A scan
may come late, and it may pass over any alert whose row it cannot lock.
-/

namespace Alerts
namespace Escalation

open Py Runs

/-! ### The system -/

structure State where
  db : Db
  clock : ℤ

inductive Action
  /-- An assignment is created or edited. -/
  | configure (assignment : AlertAssignment)
  /-- An operator acts. -/
  | operate (op : AlertOperator) (clock : OperateClock) (action : OperateAction)
      (alertId : AlertId) (data : OperateData)
  /-- The auto-close job, a recovery or the deletion of a strategy ends an alert. -/
  | endAlert (alertId : AlertId) (status : AlertStatus)
  /-- The periodic scan, which ends at `finish`. -/
  | scan (visits : AlertId → Visit) (finish : ℤ)

/-- The clock readings of an action, in order and from `start` on. -/
def OperateClock.From (start : ℤ) (clock : OperateClock) : Prop :=
  start ≤ clock.now ∧ clock.now ≤ clock.reminder ∧ clock.reminder ≤ clock.escalation

/-- The clock readings of a visit, in order and between `start` and `finish`. -/
def Visit.Within (start finish : ℤ) : Visit → Prop
  | .skipped => True
  | .at check advance reset =>
    start ≤ check ∧ check ≤ advance ∧ advance ≤ reset ∧ reset ≤ finish

instance (start : ℤ) (clock : OperateClock) : Decidable (OperateClock.From start clock) :=
  inferInstanceAs (Decidable (_ ∧ _ ∧ _))

instance (start finish : ℤ) : DecidablePred (Visit.Within start finish)
  | .skipped => isTrue trivial
  | .at _ _ _ => inferInstanceAs (Decidable (_ ∧ _ ∧ _ ∧ _))

def step (s : State) : Action → State
  | .configure assignment =>
    { s with db := { s.db with
        assignments := s.db.assignments.insert assignment.id assignment } }
  | .operate op clock action alertId data =>
    if OperateClock.From s.clock clock then
      { db := operateDb op clock action alertId data s.db, clock := clock.escalation }
    else s
  | .endAlert alertId status =>
    if status ∈ [AlertStatus.closed, .autoClose, .autoRecovery] then
      { s with db := { s.db with
          alerts := Table.modify s.db.alerts alertId fun alert => { alert with status } } }
    else s
  | .scan visits finish =>
    if s.clock ≤ finish ∧
        ∀ alertId ∈ activeEscalations s.db, Visit.Within s.clock finish (visits alertId) then
      { db := checkAndProcessEscalations visits s.db, clock := finish }
    else s

def PendingIn (db : Db) (alertId : AlertId) : Prop :=
  ∃ alert, db.alerts.lookup alertId = some alert ∧ alert.status = .pending

def Action.Dispatches (alertId : AlertId) : Action → Prop
  | .operate _ _ action id _ => id = alertId ∧ (action = .assign ∨ action = .reassign)
  | _ => False

/-! ### One visit, one cell -/

/-- What one visit of a scan does to the cell of its alert. -/
inductive CellVisit (visit : Visit) : Cell → Cell → Prop
  | kept (c : Cell) : CellVisit visit c c
  | stopped (alert : Option Alert) (task : Option AlertEscalationTask) :
      CellVisit visit (alert, task)
        (alert, task.map fun task => { task with isActive := false })
  | advanced {check advance reset : ℤ} {task : AlertEscalationTask} {alert : Alert}
      {layer next : Layer}
      (h_visit : visit = .at check advance reset)
      (h_active : task.isActive = true)
      (h_pending : alert.status = .pending)
      (h_layer : task.layers[task.currentLayerIndex]? = some layer)
      (h_due : task.layerStartedAt + minutes layer.waitMinutes ≤ check)
      (h_next : task.layers[task.currentLayerIndex + 1]? = some next) :
      CellVisit visit (some alert, some task)
        (some (alert.unite next.personnel advance), some { task with
          currentLayerIndex := task.currentLayerIndex + 1, layerStartedAt := advance })

theorem cellVisit_escalateOne (visit : Visit) (alertId : AlertId) (db : Db) :
    CellVisit visit (cell alertId db) (cell alertId (escalateOne visit alertId db)) := by
  have h_effect := escalateOne_effect visit alertId db
  generalize escalateOne visit alertId db = db' at h_effect ⊢
  cases h_effect with
  | kept => exact .kept _
  | stopped =>
    rw [cell_stopped]
    exact .stopped _ _
  | advanced h_visit h_task h_alert h_active h_pending h_layer h_due h_advanced =>
    obtain ⟨next, h_next, h_cell⟩ := cell_advanced h_advanced
    rw [h_cell, cell, h_task, h_alert]
    exact .advanced h_visit h_active h_pending h_layer h_due h_next

theorem cellVisit_scan (visits : AlertId → Visit) (k : AlertId) (db : Db) :
    CellVisit (visits k) (cell k db) (cell k (checkAndProcessEscalations visits db)) := by
  have h_frame : ∀ k', k' ≠ k → ∀ db : Db,
      cell k (escalateOne (visits k') k' db) = cell k db :=
    fun k' h_ne db => cell_escalateOne_ne (visits k') (Ne.symm h_ne) db
  unfold checkAndProcessEscalations
  by_cases h_mem : k ∈ activeEscalations db
  · obtain ⟨mid, -, h_mid, h_end⟩ := Sweep.sweep_of_mem
      (fun k => escalateOne (visits k) k) (cell k) h_frame
      (activeEscalations_nodup db) h_mem db
    rw [h_end, ← h_mid]
    exact cellVisit_escalateOne (visits k) k mid
  · rw [Sweep.sweep_of_not_mem (fun k => escalateOne (visits k) k) (cell k)
      h_frame h_mem db]
    exact .kept _

/-! ### The invariant of a cell -/

def RosterIn (task : AlertEscalationTask) (alert : Alert) : Prop :=
  ∀ k ≤ task.currentLayerIndex, ∀ layer, task.layers[k]? = some layer →
    ∀ p ∈ layer.personnel, p ∈ alert.operator

theorem RosterIn.start {a : AlertAssignment} {c : EscalationConfig} {layer : Layer}
    (h : (buildEffectiveChain a c)[0]? = some layer) (started now : ℤ) (alert : Alert) :
    RosterIn (startedTask a c started) (alert.unite layer.personnel now) := by
  intro k h_k layer' h_layer p h_p
  -- the index is still 0, so the layer is the first one
  have h_zero : k = 0 := Nat.le_zero.mp h_k
  subst h_zero
  have h_eq : layer = layer' := Option.some.inj (h.symm.trans h_layer)
  rw [Alert.mem_unite_operator, h_eq]
  exact Or.inr h_p

theorem RosterIn.advance {task : AlertEscalationTask} {alert : Alert} {next : Layer}
    (h : RosterIn task alert) (h_next : task.layers[task.currentLayerIndex + 1]? = some next)
    (now : ℤ) :
    RosterIn { task with
        currentLayerIndex := task.currentLayerIndex + 1, layerStartedAt := now }
      (alert.unite next.personnel now) := by
  intro k h_k layer h_layer p h_p
  rw [Alert.mem_unite_operator]
  rcases Nat.le_succ_iff.mp h_k with h_old | h_new
  · exact Or.inl (h k h_old layer h_layer p h_p)
  · subst h_new
    have h_eq : next = layer := Option.some.inj (h_next.symm.trans h_layer)
    rw [h_eq]
    exact Or.inr h_p

/-- The invariant of a task beside its alert. -/
structure TaskOk (alert : Option Alert) (task : AlertEscalationTask) : Prop where
  /-- The index points into the chain. -/
  index_lt : task.currentLayerIndex < task.layers.length
  /-- A pending alert has everybody reached so far among its operators. -/
  operators : task.isActive = true → ∀ a, alert = some a → a.status = .pending →
    RosterIn task a
  /-- An active task belongs to an alert that was dispatched and not acknowledged
  since. -/
  settled : task.isActive = true → ∀ a, alert = some a →
    a.status ≠ .unassigned ∧ a.status ≠ .processing

def CellOk (c : Cell) : Prop :=
  ∀ task, c.2 = some task → TaskOk c.1 task

theorem CellOk.stopped {alert alert' : Option Alert} {task : Option AlertEscalationTask}
    (h : CellOk (alert, task)) :
    CellOk (alert', task.map fun task => { task with isActive := false }) := by
  intro task' h_task
  obtain ⟨old, h_old, rfl⟩ := Option.map_eq_some_iff.mp h_task
  exact ⟨(h old h_old).index_lt, fun h_active => absurd h_active (by simp),
    fun h_active => absurd h_active (by simp)⟩

theorem CellOk.rewrite {alert : Alert} {alert' : Option Alert}
    {task : Option AlertEscalationTask} (h : CellOk (some alert, task))
    (h_status : alert.status = .unassigned ∨ alert.status = .processing) :
    CellOk (alert', task) := by
  intro task' h_task
  have h_old : TaskOk (some alert) task' := h task' h_task
  have h_idle : task'.isActive ≠ true := by
    intro h_active
    obtain ⟨h_assigned, h_open⟩ := h_old.settled h_active alert rfl
    rcases h_status with h_eq | h_eq
    · exact h_assigned h_eq
    · exact h_open h_eq
  exact ⟨h_old.index_lt, fun h_active => absurd h_active h_idle,
    fun h_active => absurd h_active h_idle⟩

theorem CellOk.create {alertId : AlertId} {a : AlertAssignment} {now : ℤ} {db : Db}
    (h : CellOk (cell alertId db)) (h_pending : PendingIn db alertId) :
    CellOk (cell alertId (orUnchanged db (createEscalationTask alertId a now db))) := by
  cases h_create : createEscalationTask alertId a now db with
  | error e => exact h
  | ok db' =>
    rcases createEscalationTask_cases h_create with rfl | ⟨c, start, -, h_start, rfl⟩
    · exact h
    · obtain ⟨alert, h_alert, h_status⟩ := h_pending
      change CellOk (cell alertId (unionIntoOperator _ _ _ _))
      rw [cell_started, h_alert]
      intro task h_task
      obtain rfl := Option.some.inj h_task
      refine ⟨List.length_pos_iff.mpr (buildEffectiveChain_ne_nil a c), ?_, ?_⟩
      · intro _ alert' h_alert' _
        obtain rfl := Option.some.inj h_alert'
        exact RosterIn.start h_start now now alert
      · intro _ alert' h_alert'
        obtain rfl := Option.some.inj h_alert'
        rw [Alert.unite_status, h_status]
        exact ⟨by decide, by decide⟩

theorem CellOk.visit {visit : Visit} {c c' : Cell}
    (h : CellOk c) (h_visit : CellVisit visit c c') : CellOk c' := by
  cases h_visit with
  | kept => exact h
  | stopped => exact h.stopped
  | advanced _ h_active h_pending _ _ h_next =>
    have h_old := h _ rfl
    intro task' h_task
    obtain rfl := Option.some.inj h_task
    refine ⟨(List.getElem?_eq_some_iff.mp h_next).1, ?_, ?_⟩
    · intro _ alert' h_alert' _
      obtain rfl := Option.some.inj h_alert'
      exact (h_old.operators h_active _ rfl h_pending).advance h_next _
    · intro _ alert' h_alert'
      obtain rfl := Option.some.inj h_alert'
      rw [Alert.unite_status]
      exact h_old.settled h_active _ rfl

/-! ### The invariant along runs -/

def Inv (s : State) : Prop := ∀ k, CellOk (cell k s.db)

theorem Inv.initial {s : State} (h : s.db.escalations = ∅) : Inv s := by
  intro k task h_task
  rw [cell, h] at h_task
  exact absurd h_task (by simp)

theorem Inv.operate {clock : OperateClock} {alertId : AlertId} {data : OperateData}
    {action : OperateAction} {db db' : Db} (h : ∀ k, CellOk (cell k db))
    (h_effect : OperateEffect clock alertId data db action db') (k : AlertId) :
    CellOk (cell k db') := by
  by_cases h_key : k = alertId
  swap
  · rw [cell_operate_ne h_effect h_key]
    exact h k
  subst h_key
  have h_cell : CellOk (cell k db) := h k
  cases h_effect with
  | refused => exact h_cell
  | @assigned alert assignee params h_alert h_status =>
    rw [cell_congr enqueueNotifications_alerts enqueueNotifications_escalations]
    rw [cell, h_alert] at h_cell
    -- no active task is left from before, so the operators may be replaced
    have h_saved : ∀ alert, CellOk (cell k (saveAlert k alert db)) := by
      intro alert
      rw [cell_saveAlert]
      exact h_cell.rewrite (Or.inl h_status)
    unfold startTasks
    split
    · exact h_saved _
    · refine CellOk.create ?_ ?_
      · rw [cell_congr createReminderTask_alerts createReminderTask_escalations]
        exact h_saved _
      · refine ⟨dispatched .assign assignee clock.now alert, ?_, rfl⟩
        rw [createReminderTask_alerts, saveAlert_lookup, if_pos rfl]
  | acknowledged h_alert h_status =>
    rw [cell_stopped]
    have h_tasks : CellOk (db.alerts.lookup k, db.escalations.lookup k) := h_cell
    exact h_tasks.stopped
  | reassigned h_alert h_status =>
    rw [cell, h_alert] at h_cell
    have h_pending : ∀ {alert : Alert} {params}, alert.status = .pending →
        PendingIn (ensureReminderTask k alert data.assignmentId clock.reminder
          (enqueueNotifications .reassign k clock.now params (saveAlert k alert db))) k := by
      intro alert params h_alert_pending
      refine ⟨alert, ?_, h_alert_pending⟩
      rw [ensureReminderTask_alerts, enqueueNotifications_alerts, saveAlert_lookup, if_pos rfl]
    have h_saved : ∀ {alert : Alert} {params},
        CellOk (cell k (ensureReminderTask k alert data.assignmentId clock.reminder
          (enqueueNotifications .reassign k clock.now params (saveAlert k alert db)))) := by
      intro alert params
      rw [cell_congr ensureReminderTask_alerts ensureReminderTask_escalations,
        cell_congr enqueueNotifications_alerts enqueueNotifications_escalations, cell_saveAlert]
      exact h_cell.rewrite (Or.inr h_status)
    unfold resumeTasks
    dsimp only
    rcases resetEscalationTask_eq k (activeAssignment (ensureReminderTask k _ data.assignmentId
      clock.reminder _) data.assignmentId) clock.escalation (ensureReminderTask k _
      data.assignmentId clock.reminder _) with ⟨h_reset, -, -⟩ | ⟨a, -, h_reset⟩
    · rw [h_reset]
      exact h_saved
    · rw [h_reset]
      exact h_saved.create (h_pending rfl)
  | finished h_alert h_status =>
    rw [cell_saveAlert]
    rw [cell, h_alert] at h_cell
    exact h_cell.rewrite (Or.inr h_status)

theorem CellOk.ended {alert : Option Alert} {task : Option AlertEscalationTask}
    {status : AlertStatus} (h : CellOk (alert, task))
    (h_status : status ∈ [AlertStatus.closed, .autoClose, .autoRecovery]) :
    CellOk (alert.map fun alert => { alert with status }, task) := by
  intro task' h_task
  refine ⟨(h task' h_task).index_lt, ?_, ?_⟩
  · intro _ a h_a h_pending
    obtain ⟨old, -, rfl⟩ := Option.map_eq_some_iff.mp h_a
    dsimp only at h_pending
    rw [h_pending] at h_status
    exact absurd h_status (by decide)
  · intro _ a h_a
    obtain ⟨old, -, rfl⟩ := Option.map_eq_some_iff.mp h_a
    refine ⟨?_, ?_⟩ <;>
    · intro h_eq
      dsimp only at h_eq
      rw [h_eq] at h_status
      exact absurd h_status (by decide)

theorem cell_endAlert (s : State) (alertId k : AlertId) (status : AlertStatus) :
    cell k (step s (.endAlert alertId status)).db = cell k s.db ∨
      (k = alertId ∧ status ∈ [AlertStatus.closed, .autoClose, .autoRecovery] ∧
        cell k (step s (.endAlert alertId status)).db =
          ((s.db.alerts.lookup k).map fun alert => { alert with status },
            s.db.escalations.lookup k)) := by
  by_cases h_status : status ∈ [AlertStatus.closed, .autoClose, .autoRecovery]
  · simp only [step, if_pos h_status]
    by_cases h_key : k = alertId
    · subst h_key
      exact Or.inr ⟨rfl, h_status, by unfold cell; rw [Table.lookup_modify_self]⟩
    · exact Or.inl (by unfold cell; rw [Table.lookup_modify_ne _ _ h_key])
  · simp only [step, if_neg h_status]
    exact Or.inl trivial

theorem Inv.step (s : State) (a : Action) (h : Inv s) : Inv (step s a) := by
  intro k
  cases a with
  | configure assignment => exact h k
  | operate op clock action alertId data =>
    by_cases h_clock : OperateClock.From s.clock clock
    · simp only [Escalation.step, if_pos h_clock]
      exact Inv.operate h (operateDb_effect op clock action alertId data s.db) k
    · simp only [Escalation.step, if_neg h_clock]
      exact h k
  | endAlert alertId status =>
    rcases cell_endAlert s alertId k status with h_same | ⟨-, h_status, h_cell⟩
    · rw [h_same]
      exact h k
    · rw [h_cell]
      exact CellOk.ended (h k) h_status
  | scan visits finish =>
    simp only [Escalation.step]
    split
    · exact (h k).visit (cellVisit_scan visits k s.db)
    · exact h k

/-! ### From a dispatch to the next one -/

/-- The minutes to wait for before layer `k + 1` of the config is reached. -/
def waitsBefore (c : EscalationConfig) (k : ℕ) : ℤ :=
  (c.layers.take k).foldl (fun waited layer => waited + layer.waitMinutes) 0

@[simp] theorem waitsBefore_zero (c : EscalationConfig) : waitsBefore c 0 = 0 := rfl

theorem waitsBefore_succ {c : EscalationConfig} {k : ℕ} {ui : UiLayer}
    (h : c.layers[k]? = some ui) : waitsBefore c (k + 1) = waitsBefore c k + ui.waitMinutes := by
  unfold waitsBefore
  rw [List.take_add_one, h, Option.toList_some, List.foldl_append]
  rfl

/-- The invariant of a cell from the dispatch at `dispatchedAt` on. -/
structure ChainOk (a : AlertAssignment) (c : EscalationConfig) (dispatchedAt clock : ℤ)
    (alert : Alert) (task : AlertEscalationTask) : Prop where
  /-- The chain is the one built at the dispatch. -/
  layers : task.layers = buildEffectiveChain a c
  /-- Everybody reached so far is an operator, whatever the status. -/
  roster : RosterIn task alert
  /-- The current layer was started in the past. -/
  started : task.layerStartedAt ≤ clock
  /-- It was started no earlier than the waits before it allow. -/
  timing : a.initialPersonnel ≠ [] →
    dispatchedAt + minutes (waitsBefore c task.currentLayerIndex) ≤ task.layerStartedAt

/-- The cell holds an alert and a task that satisfy `ChainOk`. -/
def CellChain (a : AlertAssignment) (c : EscalationConfig) (dispatchedAt clock : ℤ)
    (x : Cell) : Prop :=
  ∃ alert task, x = (some alert, some task) ∧ ChainOk a c dispatchedAt clock alert task

/-- A change that leaves the operators, the chain and the place in it. -/
def CellTouch (x x' : Cell) : Prop :=
  ∃ (f : Alert → Alert) (g : AlertEscalationTask → AlertEscalationTask),
    x' = (x.1.map f, x.2.map g) ∧ (∀ alert, (f alert).operator = alert.operator) ∧
    ∀ task, (g task).layers = task.layers ∧
      (g task).currentLayerIndex = task.currentLayerIndex ∧
      (g task).layerStartedAt = task.layerStartedAt

theorem CellTouch.refl (x : Cell) : CellTouch x x :=
  ⟨id, id, by simp, fun _ => rfl, fun _ => ⟨rfl, rfl, rfl⟩⟩

theorem CellChain.touch {a : AlertAssignment} {c : EscalationConfig}
    {dispatchedAt clock clock' : ℤ} {x x' : Cell} (h : CellChain a c dispatchedAt clock x)
    (h_clock : clock ≤ clock') (h_touch : CellTouch x x') :
    CellChain a c dispatchedAt clock' x' := by
  obtain ⟨alert, task, rfl, h_ok⟩ := h
  obtain ⟨f, g, rfl, h_op, h_task⟩ := h_touch
  obtain ⟨h_layers, h_index, h_started⟩ := h_task task
  refine ⟨f alert, g task, rfl, ?_, ?_, ?_, ?_⟩
  · rw [h_layers, h_ok.layers]
  · intro k h_k layer h_layer p h_p
    rw [h_op]
    rw [h_index] at h_k
    rw [h_layers] at h_layer
    exact h_ok.roster k h_k layer h_layer p h_p
  · rw [h_started]
    exact Int.le_trans h_ok.started h_clock
  · intro h_init
    rw [h_index, h_started]
    exact h_ok.timing h_init

theorem CellChain.visit {a : AlertAssignment} {c : EscalationConfig}
    {dispatchedAt clock finish : ℤ} {visit : Visit} {x x' : Cell}
    (h : CellChain a c dispatchedAt clock x) (h_clock : clock ≤ finish)
    (h_within : (∃ task, x.2 = some task ∧ task.isActive = true) →
      Visit.Within clock finish visit)
    (h_visit : CellVisit visit x x') : CellChain a c dispatchedAt finish x' := by
  cases h_visit with
  | kept => exact h.touch h_clock (.refl _)
  | stopped alert task =>
    refine h.touch h_clock ⟨id, fun task => { task with isActive := false }, ?_, ?_, ?_⟩
    · simp
    · exact fun _ => rfl
    · exact fun _ => ⟨rfl, rfl, rfl⟩
  | @advanced check advance reset task alert layer next h_at h_active _ h_layer h_due h_next =>
    obtain ⟨alert', task', h_eq, h_ok⟩ := h
    cases h_eq
    have h_times : Visit.Within clock finish visit := h_within ⟨task, rfl, h_active⟩
    rw [h_at] at h_times
    obtain ⟨h_check, h_advance, h_reset, h_finish⟩ := h_times
    refine ⟨_, _, rfl, h_ok.layers, h_ok.roster.advance h_next advance, ?_, ?_⟩
    · exact Int.le_trans h_reset h_finish
    · intro h_init
      -- the layer left is entry `k` of the chain, so it waited for layer `k` of the config
      have h_index : task.currentLayerIndex < c.layers.length := by
        have h_lt := (List.getElem?_eq_some_iff.mp h_next).1
        rw [h_ok.layers, buildEffectiveChain_length h_init] at h_lt
        exact Nat.lt_of_succ_lt_succ h_lt
      obtain ⟨ui, h_ui⟩ : ∃ ui, c.layers[task.currentLayerIndex]? = some ui :=
        ⟨_, List.getElem?_eq_getElem h_index⟩
      have h_wait : layer.waitMinutes = ui.waitMinutes := by
        rw [h_ok.layers] at h_layer
        exact buildEffectiveChain_wait h_init h_layer h_ui
      have h_before := h_ok.timing h_init
      change dispatchedAt + minutes (waitsBefore c (task.currentLayerIndex + 1)) ≤ advance
      rw [waitsBefore_succ h_ui, minutes_add, ← h_wait]
      omega

theorem cellTouch_operate {clock : OperateClock} {alertId k : AlertId} {data : OperateData}
    {action : OperateAction} {db db' : Db}
    (h_effect : OperateEffect clock alertId data db action db')
    (h : k = alertId → ¬(action = .assign ∨ action = .reassign)) :
    CellTouch (cell k db) (cell k db') := by
  by_cases h_key : k = alertId
  swap
  · rw [cell_operate_ne h_effect h_key]
    exact .refl _
  have h_other := h h_key
  subst h_key
  cases h_effect with
  | refused => exact .refl _
  | assigned => exact absurd (Or.inl rfl) h_other
  | reassigned => exact absurd (Or.inr rfl) h_other
  | acknowledged h_alert h_status =>
    rw [cell_stopped]
    refine ⟨fun alert => { alert with
        status := .processing, operate := some .acknowledge, updatedAt := clock.now },
      fun task => { task with isActive := false }, ?_, fun _ => rfl, fun _ => ⟨rfl, rfl, rfl⟩⟩
    rw [cell, h_alert, stopReminderTask_alerts, saveAlert_lookup, if_pos rfl]
    rfl
  | @finished _ alert status operate h_alert h_status =>
    rw [cell_saveAlert]
    refine ⟨fun alert => { alert with status, operate, updatedAt := clock.now }, id, ?_,
      fun _ => rfl, fun _ => ⟨rfl, rfl, rfl⟩⟩
    rw [cell, h_alert, Option.map_id]
    rfl

theorem cellTouch_endAlert (s : State) (alertId k : AlertId) (status : AlertStatus) :
    CellTouch (cell k s.db) (cell k (step s (.endAlert alertId status)).db) := by
  rcases cell_endAlert s alertId k status with h_same | ⟨-, -, h_cell⟩
  · rw [h_same]
    exact .refl _
  · rw [h_cell]
    exact ⟨fun alert => { alert with status }, id, by rw [Option.map_id]; rfl, fun _ => rfl,
      fun _ => ⟨rfl, rfl, rfl⟩⟩

theorem clock_le_step (s : State) (a : Action) : s.clock ≤ (step s a).clock := by
  cases a with
  | configure => exact Int.le_refl _
  | operate op clock action alertId data =>
    simp only [step]
    split
    next h_clock => exact Int.le_trans h_clock.1 (Int.le_trans h_clock.2.1 h_clock.2.2)
    · exact Int.le_refl _
  | endAlert =>
    simp only [step]
    split <;> exact Int.le_refl _
  | scan visits finish =>
    simp only [step]
    split
    next h_scan => exact h_scan.1
    · exact Int.le_refl _

/-- **Between dispatches.** Every action but a dispatch of the alert keeps the
chain invariant of its cell. -/
theorem CellChain.next {a : AlertAssignment} {c : EscalationConfig} {dispatchedAt : ℤ}
    {s : State} {k : AlertId} {act : Action}
    (h : CellChain a c dispatchedAt s.clock (cell k s.db)) (h_other : ¬act.Dispatches k) :
    CellChain a c dispatchedAt (step s act).clock (cell k (step s act).db) := by
  have h_clock := clock_le_step s act
  cases act with
  | configure assignment => exact h.touch h_clock (.refl _)
  | operate op clock action alertId data =>
    refine h.touch h_clock ?_
    simp only [Escalation.step]
    split
    · exact cellTouch_operate (operateDb_effect op clock action alertId data s.db)
        fun h_key h_action => h_other ⟨h_key.symm, h_action⟩
    · exact .refl _
  | endAlert alertId status => exact h.touch h_clock (cellTouch_endAlert s alertId k status)
  | scan visits finish =>
    simp only [Escalation.step] at h_clock ⊢
    split
    next h_scan =>
      refine h.visit h_scan.1 ?_ (cellVisit_scan visits k s.db)
      rintro ⟨task, h_task, h_active⟩
      exact h_scan.2 k (Table.mem_keysWhere.mpr ⟨task, h_task, h_active⟩)
    · exact h

/-! ### Dispatches -/

/-- The assignment whose chain a dispatch starts: the given one if it is active,
for a reassignment else the one of the existing task. -/
def dispatchAssignment (db : Db) (alertId : AlertId) (data : OperateData) :
    OperateAction → Option AlertAssignment
  | .assign => activeAssignment db data.assignmentId
  | .reassign => (activeAssignment db data.assignmentId).or
      ((db.escalations.lookup alertId).bind fun task => db.assignments.lookup task.assignmentId)
  | _ => none

/-- The action dispatches the alert by an assignment whose escalation config is accepted. -/
structure StartsChain (s : State) (act : Action) (k : AlertId) (a : AlertAssignment)
    (c : EscalationConfig) (dispatchedAt : ℤ) : Prop where
  dispatch : ∃ op clock action data, act = .operate op clock action k data ∧
    clock.now = dispatchedAt ∧ dispatchAssignment s.db k data action = some a
  accepted : parseEscalationConfig a.config = .ok (some c)
  before : ¬PendingIn s.db k
  after : PendingIn (step s act).db k

theorem CellChain.create {a : AlertAssignment} {c : EscalationConfig} {k : AlertId} {db : Db}
    {dispatchedAt now : ℤ} (h_parse : parseEscalationConfig a.config = .ok (some c))
    (h_pending : PendingIn db k) (h_now : dispatchedAt ≤ now) :
    CellChain a c dispatchedAt now
      (cell k (orUnchanged db (createEscalationTask k a now db))) := by
  obtain ⟨start, h_start, h_create⟩ := createEscalationTask_of_parse k now db h_parse
  obtain ⟨alert, h_alert, -⟩ := h_pending
  rw [h_create]
  change CellChain a c dispatchedAt now (cell k (unionIntoOperator _ _ _ _))
  rw [cell_started, h_alert]
  refine ⟨_, _, rfl, rfl, RosterIn.start h_start now now alert, Int.le_refl now, fun _ => ?_⟩
  change dispatchedAt + minutes (waitsBefore c 0) ≤ now
  rw [waitsBefore_zero]
  simpa [minutes] using h_now

theorem StartsChain.cellChain {s : State} {act : Action} {k : AlertId} {a : AlertAssignment}
    {c : EscalationConfig} {dispatchedAt : ℤ} (h : StartsChain s act k a c dispatchedAt) :
    CellChain a c dispatchedAt (step s act).clock (cell k (step s act).db) := by
  obtain ⟨op, clock, action, data, rfl, rfl, h_assignment⟩ := h.dispatch
  have h_after := h.after
  by_cases h_clock : OperateClock.From s.clock clock
  swap
  · -- a disabled action dispatches nothing
    simp only [step, if_neg h_clock] at h_after
    exact absurd h_after h.before
  simp only [step, if_pos h_clock] at h_after ⊢
  have h_now : clock.now ≤ clock.escalation := Int.le_trans h_clock.2.1 h_clock.2.2
  have h_effect := operateDb_effect op clock action k data s.db
  generalize operateDb op clock action k data s.db = db' at h_effect h_after ⊢
  cases h_effect with
  | refused => exact absurd h_after h.before
  | acknowledged => exact absurd h_assignment (by simp [dispatchAssignment])
  | finished _ _ h_end =>
    rcases h_end with ⟨rfl, -⟩ | ⟨rfl, -⟩ <;>
      exact absurd h_assignment (by simp [dispatchAssignment])
  | @assigned alert assignee params =>
    rw [cell_congr enqueueNotifications_alerts enqueueNotifications_escalations]
    have h_active : activeAssignment s.db data.assignmentId = some a := h_assignment
    unfold startTasks
    rw [h_active]
    refine CellChain.create h.accepted ?_ h_now
    refine ⟨dispatched .assign assignee clock.now alert, ?_, rfl⟩
    rw [createReminderTask_alerts, saveAlert_lookup, if_pos rfl]
  | @reassigned alert assignee params =>
    unfold resumeTasks
    dsimp only
    set mid := ensureReminderTask k (dispatched .reassign assignee clock.now alert)
      data.assignmentId clock.reminder (enqueueNotifications .reassign k clock.now params
        (saveAlert k (dispatched .reassign assignee clock.now alert) s.db)) with h_mid
    have h_tasks : mid.escalations = s.db.escalations := by
      rw [h_mid, ensureReminderTask_escalations, enqueueNotifications_escalations]
      rfl
    have h_assignments : mid.assignments = s.db.assignments := by
      rw [h_mid, ensureReminderTask_assignments, enqueueNotifications_assignments]
      rfl
    have h_pending : PendingIn mid k := by
      refine ⟨dispatched .reassign assignee clock.now alert, ?_, rfl⟩
      rw [h_mid, ensureReminderTask_alerts, enqueueNotifications_alerts, saveAlert_lookup,
        if_pos rfl]
    have h_or : (activeAssignment mid data.assignmentId).or ((mid.escalations.lookup k).bind
        fun task => mid.assignments.lookup task.assignmentId) = some a := by
      unfold activeAssignment
      rw [h_tasks, h_assignments]
      exact h_assignment
    rcases resetEscalationTask_eq k (activeAssignment mid data.assignmentId) clock.escalation mid
      with ⟨-, h_none, h_none'⟩ | ⟨a', h_some, h_reset⟩
    · rw [h_none, h_none'] at h_or
      exact absurd h_or (by simp)
    · obtain rfl := Option.some.inj (h_some.symm.trans h_or)
      rw [h_reset]
      exact CellChain.create h.accepted h_pending h_now

/-! ### The steps of a run -/

/-- What a step may do to the chains. -/
structure StepOk (s : State) (act : Action) (s' : State) : Prop where
  /-- Between dispatches an index moves only by a scan, by one. -/
  advance : ∀ k task, s.db.escalations.lookup k = some task → ¬act.Dispatches k →
    ∃ task', s'.db.escalations.lookup k = some task' ∧ task'.layers = task.layers ∧
      (task'.currentLayerIndex = task.currentLayerIndex ∨
        (∃ visits finish, act = .scan visits finish) ∧
        task'.currentLayerIndex = task.currentLayerIndex + 1 ∧
        task'.currentLayerIndex < task.layers.length ∧ task.isActive = true ∧
        PendingIn s.db k)
  /-- An escalation notification is about a pending alert. -/
  notified : ∃ new, s'.db.outbox = s.db.outbox ++ new ∧
    ∀ n ∈ new, n.kind = .escalation → PendingIn s.db n.alertId

theorem CellTouch.task {x x' : Cell} (h : CellTouch x x') {task : AlertEscalationTask}
    (h_task : x.2 = some task) :
    ∃ task', x'.2 = some task' ∧ task'.layers = task.layers ∧
      task'.currentLayerIndex = task.currentLayerIndex := by
  obtain ⟨f, g, rfl, -, h_g⟩ := h
  refine ⟨g task, ?_, (h_g task).1, (h_g task).2.1⟩
  change x.2.map g = _
  rw [h_task]
  rfl

theorem operate_outbox {clock : OperateClock} {alertId : AlertId} {data : OperateData}
    {action : OperateAction} {db db' : Db}
    (h_effect : OperateEffect clock alertId data db action db') :
    ∃ new, db'.outbox = db.outbox ++ new ∧ ∀ n ∈ new, n.kind ≠ .escalation := by
  have h_create : ∀ (a : AlertAssignment) (now : ℤ) (db : Db),
      (orUnchanged db (createEscalationTask alertId a now db)).outbox = db.outbox := by
    intro a now db
    cases h : createEscalationTask alertId a now db with
    | error e => rfl
    | ok db' => exact createEscalationTask_outbox h
  cases h_effect with
  | refused => exact ⟨[], (List.append_nil _).symm, by simp⟩
  | acknowledged => exact ⟨[], (List.append_nil _).symm, by simp⟩
  | finished => exact ⟨[], (List.append_nil _).symm, by simp⟩
  | @assigned alert assignee params =>
    obtain ⟨new, h_new, h_kind⟩ := enqueueNotifications_outbox .dispatch alertId clock.now params
      (startTasks clock alertId (dispatched .assign assignee clock.now alert)
        (activeAssignment db data.assignmentId)
        (saveAlert alertId (dispatched .assign assignee clock.now alert) db))
    refine ⟨new, ?_, fun n h_mem => by rw [(h_kind n h_mem).2]; decide⟩
    rw [h_new]
    unfold startTasks
    cases activeAssignment db data.assignmentId with
    | none => rfl
    | some a =>
      dsimp only
      rw [h_create, createReminderTask_outbox]
      rfl
  | @reassigned alert assignee params =>
    obtain ⟨new, h_new, h_kind⟩ := enqueueNotifications_outbox .reassign alertId clock.now params
      (saveAlert alertId (dispatched .reassign assignee clock.now alert) db)
    refine ⟨new, ?_, fun n h_mem => by rw [(h_kind n h_mem).2]; decide⟩
    unfold resumeTasks
    dsimp only
    rcases resetEscalationTask_eq alertId (activeAssignment (ensureReminderTask alertId _
      data.assignmentId clock.reminder _) data.assignmentId) clock.escalation
      (ensureReminderTask alertId _ data.assignmentId clock.reminder _)
      with ⟨h_reset, -, -⟩ | ⟨a, -, h_reset⟩
    · rw [h_reset]
      change (ensureReminderTask _ _ _ _ _).outbox = _
      rw [ensureReminderTask_outbox, h_new]
      rfl
    · rw [h_reset, h_create, ensureReminderTask_outbox, h_new]
      rfl

theorem pendingIn_iff {db : Db} {k : AlertId} :
    PendingIn db k ↔ statusOf db k = some .pending := by
  unfold PendingIn statusOf
  rw [Option.map_eq_some_iff]

theorem escalateOne_notifies (visit : Visit) (alertId : AlertId) (db : Db) :
    (∀ k, statusOf (escalateOne visit alertId db) k = statusOf db k) ∧
    ∃ new, (escalateOne visit alertId db).outbox = db.outbox ++ new ∧
      ∀ n ∈ new, PendingIn db n.alertId := by
  have h_effect := escalateOne_effect visit alertId db
  generalize escalateOne visit alertId db = db' at h_effect ⊢
  cases h_effect with
  | kept => exact ⟨fun _ => rfl, [], (List.append_nil _).symm, by simp⟩
  | stopped => exact ⟨fun _ => rfl, [], (List.append_nil _).symm, by simp⟩
  | advanced _ _ h_alert _ h_pending _ _ h_advanced =>
    obtain ⟨next, -, h_alerts⟩ := h_advanced.alerts
    obtain ⟨new, h_new, h_about⟩ := h_advanced.outbox
    refine ⟨fun k => ?_, new, h_new, fun n h_mem => ?_⟩
    · unfold statusOf
      rw [h_alerts, Table.lookup_modify]
      split_ifs with h_key
      · rw [h_key, Option.map_map]
        congr 1
        funext alert
        exact Alert.unite_status _ _ alert
      · rfl
    · rw [(h_about n h_mem).1]
      exact ⟨_, h_alert, h_pending⟩

theorem scan_outbox (visits : AlertId → Visit) (db : Db) :
    ∃ new, (checkAndProcessEscalations visits db).outbox = db.outbox ++ new ∧
      ∀ n ∈ new, PendingIn db n.alertId := by
  let I : Db → Prop := fun mid => (∀ k, statusOf mid k = statusOf db k) ∧
    ∃ new, mid.outbox = db.outbox ++ new ∧ ∀ n ∈ new, PendingIn db n.alertId
  have h_visit : ∀ k mid, I mid → I (escalateOne (visits k) k mid) := by
    rintro k mid ⟨h_status, new, h_new, h_pending⟩
    obtain ⟨h_status', new', h_new', h_pending'⟩ := escalateOne_notifies (visits k) k mid
    refine ⟨fun k' => (h_status' k').trans (h_status k'), new ++ new', ?_, ?_⟩
    · rw [h_new', h_new, List.append_assoc]
    · intro n h_mem
      rcases List.mem_append.mp h_mem with h_old | h_mem'
      · exact h_pending n h_old
      · have h_mid := h_pending' n h_mem'
        rw [pendingIn_iff, h_status] at h_mid
        exact pendingIn_iff.mpr h_mid
  have h_end : I (checkAndProcessEscalations visits db) :=
    Sweep.sweep_invariant h_visit (activeEscalations db)
      ⟨fun _ => rfl, [], (List.append_nil _).symm, by simp⟩
  exact h_end.2

theorem CellVisit.task {visit : Visit} {x x' : Cell} (h : CellVisit visit x x')
    {task : AlertEscalationTask} (h_task : x.2 = some task) :
    ∃ task', x'.2 = some task' ∧ task'.layers = task.layers ∧
      (task'.currentLayerIndex = task.currentLayerIndex ∨
        task'.currentLayerIndex = task.currentLayerIndex + 1 ∧
        task'.currentLayerIndex < task.layers.length ∧ task.isActive = true ∧
        ∃ alert, x.1 = some alert ∧ alert.status = .pending) := by
  cases h with
  | kept => exact ⟨task, h_task, rfl, Or.inl rfl⟩
  | stopped alert old =>
    refine ⟨{ task with isActive := false }, ?_, rfl, Or.inl rfl⟩
    change old.map _ = _
    rw [show old = some task from h_task]
    rfl
  | advanced _ h_active h_pending _ _ h_next =>
    obtain rfl := Option.some.inj h_task
    exact ⟨_, rfl, rfl, Or.inr ⟨rfl, (List.getElem?_eq_some_iff.mp h_next).1, h_active,
      _, rfl, h_pending⟩⟩

theorem stepOk (s : State) (act : Action) : StepOk s act (step s act) := by
  have h_quiet : ∃ new, s.db.outbox = s.db.outbox ++ new ∧
      ∀ n ∈ new, n.kind = NotifyKind.escalation → PendingIn s.db n.alertId :=
    ⟨[], (List.append_nil _).symm, by simp⟩
  -- an action that only touches the cells moves no index
  have h_touched : ∀ k (task : AlertEscalationTask) (s' : State),
      s.db.escalations.lookup k = some task → CellTouch (cell k s.db) (cell k s'.db) →
      ∃ task', s'.db.escalations.lookup k = some task' ∧ task'.layers = task.layers ∧
        task'.currentLayerIndex = task.currentLayerIndex :=
    fun k task s' h_task h_touch => h_touch.task h_task
  cases act with
  | configure assignment =>
    exact ⟨fun k task h_task _ => ⟨task, h_task, rfl, Or.inl rfl⟩, h_quiet⟩
  | operate op clock action alertId data =>
    have h_effect := operateDb_effect op clock action alertId data s.db
    simp only [step]
    split
    · refine ⟨fun k task h_task h_other => ?_, ?_⟩
      · obtain ⟨task', h_task', h_layers, h_index⟩ := h_touched k task
          { db := operateDb op clock action alertId data s.db, clock := clock.escalation } h_task
          (cellTouch_operate h_effect fun h_key h_action => h_other ⟨h_key.symm, h_action⟩)
        exact ⟨task', h_task', h_layers, Or.inl h_index⟩
      · obtain ⟨new, h_new, h_kind⟩ := operate_outbox h_effect
        exact ⟨new, h_new, fun n h_mem h_escalation => absurd h_escalation (h_kind n h_mem)⟩
    · exact ⟨fun k task h_task _ => ⟨task, h_task, rfl, Or.inl rfl⟩, h_quiet⟩
  | endAlert alertId status =>
    refine ⟨fun k task h_task _ => ?_, ?_⟩
    · obtain ⟨task', h_task', h_layers, h_index⟩ := h_touched k task _ h_task
        (cellTouch_endAlert s alertId k status)
      exact ⟨task', h_task', h_layers, Or.inl h_index⟩
    · simp only [step]
      split <;> exact h_quiet
  | scan visits finish =>
    simp only [step]
    split
    · refine ⟨fun k task h_task _ => ?_, ?_⟩
      · obtain ⟨task', h_task', h_layers, h_index⟩ := (cellVisit_scan visits k s.db).task h_task
        refine ⟨task', h_task', h_layers, ?_⟩
        rcases h_index with h_same | ⟨h_next, h_lt, h_active, h_pending⟩
        · exact Or.inl h_same
        · exact Or.inr ⟨⟨visits, finish, rfl⟩, h_next, h_lt, h_active, h_pending⟩
      · obtain ⟨new, h_new, h_pending⟩ := scan_outbox visits s.db
        exact ⟨new, h_new, fun n h_mem _ => h_pending n h_mem⟩
    · exact ⟨fun k task h_task _ => ⟨task, h_task, rfl, Or.inl rfl⟩, h_quiet⟩

/-! ### Every run -/

/-- What holds of the run `as` from `s`. -/
structure EscalationSafe (s : State) (as : List Action) : Prop where
  /-- Indices point into their chains, and whom a chain has reached is an operator. -/
  states : Always step (fun u => ∀ k task, u.db.escalations.lookup k = some task →
    task.isActive = true → task.currentLayerIndex < task.layers.length ∧
      ∀ alert, u.db.alerts.lookup k = some alert → alert.status = .pending →
        RosterIn task alert) s as
  /-- Every step moves the chains as `StepOk` allows. -/
  steps : Along step StepOk s as
  /-- From a dispatch to the next the chain stays, and its layers come in time. -/
  chains : ∀ pre d post k a c dispatchedAt, as = pre ++ d :: post →
    StartsChain (run step s pre) d k a c dispatchedAt → (∀ b ∈ post, ¬b.Dispatches k) →
    Always step (fun u => ∃ alert task, u.db.alerts.lookup k = some alert ∧
      u.db.escalations.lookup k = some task ∧ task.layers = buildEffectiveChain a c ∧
      RosterIn task alert ∧ (a.initialPersonnel ≠ [] →
        dispatchedAt + minutes (waitsBefore c task.currentLayerIndex) ≤ u.clock))
      (run step s (pre ++ [d])) post

theorem CellChain.always {a : AlertAssignment} {c : EscalationConfig} {dispatchedAt : ℤ}
    {k : AlertId} {as : List Action} {s : State}
    (h : CellChain a c dispatchedAt s.clock (cell k s.db))
    (h_other : ∀ b ∈ as, ¬b.Dispatches k) :
    Always step (fun u => CellChain a c dispatchedAt u.clock (cell k u.db)) s as := by
  induction as generalizing s with
  | nil => exact always_nil.mpr h
  | cons b as ih =>
    rw [List.forall_mem_cons] at h_other
    exact always_cons.mpr ⟨h, ih (h.next h_other.1) h_other.2⟩

/-- An unassigned alert, and an assignment to `amy` that escalates to `bob` after
five minutes. -/
def onCall : State where
  clock := 0
  db :=
    { alerts := (∅ : Table AlertId Alert).insert 1 { team := [.int 7] }
      assignments := (∅ : Table AssignmentId AlertAssignment).insert 3
        { id := 3
          personnel := some [.str "amy"]
          notifyChannels := .list [.dict [("channel_type", .str "email"), ("id", .int 1)]]
          config := .dict [("escalation", .dict
            [("enabled", .bool true), ("mode", .str "append"), ("layers", .list [.dict
              [("personnel", .list [.str "bob"]), ("wait_minutes", .int 5)]])])] }
      escalations := ∅
      reminders := ∅
      users := [⟨"amy", [.int 7]⟩]
      outbox := [] }

def onCallRun : List Action :=
  [.operate ⟨"admin", none⟩ ⟨0, 0, 0⟩ .assign 1 ⟨.list [.str "amy"], some 3⟩,
    .scan (fun _ => .at (minutes 4) (minutes 4) (minutes 4)) (minutes 4),
    .scan (fun _ => .at (minutes 20) (minutes 20) (minutes 20)) (minutes 20)]

end Escalation
end Alerts
