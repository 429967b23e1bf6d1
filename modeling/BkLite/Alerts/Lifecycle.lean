import BkLite.Alerts.MissingDetection
import BkLite.Alerts.Writers
import BkLite.Framework.Runs

/-!
# The life cycle of an alert

Runs of everything that writes the status of an alert, in any interleaving. An operator action, one
group of an aggregation pass, one candidate of the automatic closing and the linking of a batch of
recovery events are each one transaction on locked rows, and one step.

Three writers are not: the recovery check that runs after the commit of the links, the recovery of a
missing-heartbeat alert and the closing of the sessions of a deleted strategy read a row, decide,
and save their columns afterwards.
-/

namespace Alerts
namespace Lifecycle

open Aggregation MissingDetection

/-! ### The machine -/

structure State where
  store : Store
  /-- Groups that a pass has read and not handled yet. -/
  results : List (AlarmStrategy × AggregationResult) := []
  /-- Alerts whose links are committed and whose check has not begun. -/
  checks : List AlertId := []
  /-- Rows as the checks have read them. -/
  held : List (AlertId × Alert) := []
  /-- Columns that are about to be saved. -/
  saves : List (AlertId × Save) := []
  /-- Candidates of the automatic closing. -/
  closings : List AlertId := []

inductive Step
  /-- An event comes in. -/
  | receive (eid : EventId) (e : Event)
  /-- An event is shielded. -/
  | shield (eid : EventId)
  | operate (op : AlertOperator) (clock : OperateClock) (action : OperateAction)
      (alertId : AlertId) (data : OperateData)
  /-- A pass reads its window. -/
  | readWindow (s : AlarmStrategy) (clock : PassClock)
  /-- A pass handles a group. -/
  | aggregate (i : ℕ) (now : ℤ)
  /-- A batch of recovery events is linked. -/
  | link (recoveryEvents : List EventId)
  /-- A check reads the row: `refresh_from_db`. -/
  | refresh (i : ℕ)
  /-- A check reads the links and decides. -/
  | check (i : ℕ)
  /-- `_recover_missing_alert` reads. -/
  | readMissing (s : MissingStrategy) (now : ℤ)
  /-- `check_session_timeouts` reads. -/
  | readTimeouts (now : ℤ)
  /-- `confirm_observing_alerts_by_strategy` reads. -/
  | readConfirmed (strategyId : ℕ)
  /-- `close_observing_session_alerts_by_strategy` reads. -/
  | readDeleted (strategyId : ℕ)
  /-- Some columns are saved. -/
  | write (i : ℕ) (now : ℤ)
  /-- The automatic closing looks for candidates. -/
  | scanClosing (strategies : List ClosingStrategy) (currentTime : ℤ)
  | autoClose (i : ℕ) (now : ℤ)

def recoveryEvents (events : Table EventId Event) (ids : List EventId) :
    List (EventId × Event) :=
  (ids.filterMap fun eid => (events.lookup eid).map fun e => (eid, e)).filter
    fun e => isRecovery e.2

/-- `save(update_fields=…)`, and the reminder that a recovery stops. -/
def writeSave (k : AlertId) (save : Save) (now : ℤ) (db : Db) : Db :=
  let db := { db with alerts := Table.modify db.alerts k (save.apply now) }
  if save.status = some .autoRecovery then stopReminderTask k db else db

@[simp] theorem writeSave_alerts (k : AlertId) (save : Save) (now : ℤ) (db : Db) :
    (writeSave k save now db).alerts = Table.modify db.alerts k (save.apply now) := by
  unfold writeSave
  dsimp only
  split_ifs <;> rfl

def State.withDb (s : State) (db : Db) : State := { s with store := { s.store with db } }

section Machine

variable (env : Env) (matching : Matches)

def step (s : State) : Step → State
  | .receive eid e =>
    if eid ∈ s.store.events then s
    else { s with store := { s.store with events := s.store.events.insert eid e } }
  | .shield eid =>
    { s with store := { s.store with
      events := Table.modify s.store.events eid fun e => { e with status := .shield } } }
  | .operate op clock action alertId data =>
    s.withDb (operateDb op clock action alertId data s.store.db)
  | .readWindow strategy clock =>
    { s with results := s.results ++
        (passResults env matching strategy clock s.store).map fun r => (strategy, r) }
  | .aggregate i now =>
    match s.results[i]? with
    | none => s
    | some (strategy, r) =>
      { s with
        results := s.results.eraseIdx i
        store := processResult env strategy now s.store r }
  | .link ids =>
    let linked := handleRecoveryEvents (recoveryEvents s.store.events ids) s.store
    { s with store := linked.1, checks := s.checks ++ linked.2 }
  | .refresh i =>
    match s.checks[i]? with
    | none => s
    | some k =>
      { s with
        checks := s.checks.eraseIdx i
        held := s.held ++ (s.store.db.alerts.lookup k).toList.map fun alert => (k, alert) }
  | .check i =>
    match s.held[i]? with
    | none => s
    | some (k, alert) =>
      -- the links are read now, the columns are those of the row as it was read
      let recovers := (s.store.db.alerts.lookup k).any fun row =>
        shouldRecover (linkedEvents s.store.events row)
      { s with
        held := s.held.eraseIdx i
        saves := if recovers then s.saves ++ [(k, recoverySave alert)] else s.saves }
  | .readMissing strategy now =>
    match findActiveAlert env.md5 strategy s.store.db with
    | none => s
    | some (k, _) =>
      { s with saves := s.saves ++ [(k, { status := some .autoRecovery, lastEventTime := some now })] }
  | .readTimeouts now => { s with saves := s.saves ++ checkSessionTimeouts now s.store.db }
  | .readConfirmed strategyId =>
    { s with saves := s.saves ++ confirmObservingAlerts strategyId s.store.db }
  | .readDeleted strategyId =>
    { s with saves := s.saves ++ closeObservingSessionAlerts strategyId s.store.db }
  | .write i now =>
    match s.saves[i]? with
    | none => s
    | some (k, save) =>
      { s.withDb (writeSave k save now s.store.db) with saves := s.saves.eraseIdx i }
  | .scanClosing strategies currentTime =>
    { s with closings := s.closings ++ autoCloseCandidates strategies currentTime s.store.db }
  | .autoClose i now =>
    match s.closings[i]? with
    | none => s
    | some k =>
      { s.withDb (autoCloseAlert k now s.store.db) with closings := s.closings.eraseIdx i }

end Machine

/-! ### The law -/

def DeletesSession (s : State) (a : Step) : Prop :=
  ∃ i now k save, a = .write i now ∧ s.saves[i]? = some (k, save) ∧ save.status = some .closed

def LifeCycle (s : State) (a : Step) (t : State) : Prop :=
  ∀ k alert, s.store.db.alerts.lookup k = some alert →
    ∃ alert', t.store.db.alerts.lookup k = some alert' ∧
      (alert'.status = alert.status ∨ Edge (DeletesSession s a) alert.status alert'.status)

/-- From some state of the run on, an alert that is not active keeps its status. -/
def StaysLeft (step : State → Step → State) (s : State) (as : List Step) : Prop :=
  ∀ pre mid, pre ++ mid <+: as → ∀ k alert,
    (Runs.run step s pre).store.db.alerts.lookup k = some alert → ¬alert.status.IsActive →
      ∃ alert', (Runs.run step s (pre ++ mid)).store.db.alerts.lookup k = some alert' ∧
        alert'.status = alert.status

def Timely (s : State) : Step → Prop
  | .write i _ => ∀ p ∈ s.saves[i]?, ∀ alert ∈ s.store.db.alerts.lookup p.1, ∀ st ∈ p.2.status,
      alert.status.IsActive ∨ alert.status = st
  | _ => True

instance (s : State) : DecidablePred (Timely s)
  | .write i _ =>
    inferInstanceAs (Decidable (∀ p ∈ s.saves[i]?, ∀ alert ∈ s.store.db.alerts.lookup p.1,
      ∀ st ∈ p.2.status, alert.status.IsActive ∨ alert.status = st))
  | .receive .. | .shield _ | .operate .. | .readWindow .. | .aggregate .. | .link _ | .refresh _
  | .check _ | .readMissing .. | .readTimeouts _ | .readConfirmed _ | .readDeleted _
  | .scanClosing .. | .autoClose .. => isTrue trivial

/-! ### Invariant -/

def SaveOk (save : Save) : Prop :=
  ∀ st, save.status = some st → st = .autoRecovery ∨ st = .closed

/-- What every reachable state satisfies. -/
structure Inv (s : State) : Prop where
  below : Table.Below s.store.db.alerts s.store.nextAlertId
  saves : ∀ p ∈ s.saves, SaveOk p.2

theorem saveOk_recoverySave (alert : Alert) : SaveOk (recoverySave alert) := by
  intro st h_st
  exact Or.inl (Option.some.inj h_st).symm

theorem Inv.withSaves {s : State} (h : Inv s) {saves : List (AlertId × Save)}
    (h_saves : ∀ p ∈ saves, SaveOk p.2) : Inv { s with saves := s.saves ++ saves } := by
  refine ⟨h.below, fun p h_p => ?_⟩
  rcases List.mem_append.mp h_p with h_old | h_new
  · exact h.saves p h_old
  · exact h_saves p h_new

section Steps

variable {env : Env} {matching : Matches} {s : State}

theorem Inv.step (h : Inv s) (a : Step) : Inv (step env matching s a) := by
  cases a with
  | receive eid e =>
    unfold Lifecycle.step
    dsimp only
    split_ifs
    · exact h
    · exact ⟨h.below, h.saves⟩
  | shield eid => exact ⟨h.below, h.saves⟩
  | operate op clock action alertId data =>
    exact ⟨below_operate (operateDb_effect op clock action alertId data s.store.db) h.below,
      h.saves⟩
  | readWindow strategy clock => exact ⟨h.below, h.saves⟩
  | aggregate i now =>
    unfold Lifecycle.step
    dsimp only
    split
    · exact h
    · exact ⟨below_processResult h.below, h.saves⟩
  | link ids => exact ⟨below_handleRecoveryEvents _ h.below, h.saves⟩
  | refresh i =>
    unfold Lifecycle.step
    dsimp only
    split
    · exact h
    · exact ⟨h.below, h.saves⟩
  | check i =>
    unfold Lifecycle.step
    dsimp only
    split
    · exact h
    · split_ifs
      · refine ⟨h.below, fun p h_p => ?_⟩
        rcases List.mem_append.mp h_p with h_old | h_new
        · exact h.saves p h_old
        · rw [List.mem_singleton.mp h_new]
          exact saveOk_recoverySave _
      · exact ⟨h.below, h.saves⟩
  | readMissing strategy now =>
    unfold Lifecycle.step
    dsimp only
    split
    · exact h
    · refine h.withSaves fun p h_p => ?_
      rw [List.mem_singleton.mp h_p]
      intro st h_st
      exact Or.inl (Option.some.inj h_st).symm
  | readTimeouts now =>
    refine h.withSaves fun p h_p => ?_
    obtain ⟨k, -, rfl⟩ := List.mem_map.mp h_p
    intro st h_st
    cases h_st
  | readConfirmed strategyId =>
    refine h.withSaves fun p h_p => ?_
    obtain ⟨k, -, rfl⟩ := List.mem_map.mp h_p
    intro st h_st
    cases h_st
  | readDeleted strategyId =>
    refine h.withSaves fun p h_p => ?_
    obtain ⟨k, -, rfl⟩ := List.mem_map.mp h_p
    intro st h_st
    exact Or.inr (Option.some.inj h_st).symm
  | write i now =>
    unfold Lifecycle.step
    dsimp only
    split
    · exact h
    next k save _ =>
      refine ⟨?_, fun p h_p => h.saves p (List.mem_of_mem_eraseIdx h_p)⟩
      show Table.Below (writeSave k save now s.store.db).alerts s.store.nextAlertId
      rw [writeSave_alerts]
      exact h.below.modify k
  | scanClosing strategies currentTime => exact ⟨h.below, h.saves⟩
  | autoClose i now =>
    unfold Lifecycle.step
    dsimp only
    split
    · exact h
    · exact ⟨below_autoCloseAlert _ now h.below, h.saves⟩

theorem lifeCycle_of_allMoved {a : Step} {t : State}
    (h : AllMoved s.store.db.alerts t.store.db.alerts) : LifeCycle s a t := by
  intro k alert h_alert
  obtain ⟨alert', h_alert', h_moved⟩ := h k alert h_alert
  refine ⟨alert', h_alert', ?_⟩
  rcases h_moved.status with h_same | h_edge
  · exact Or.inl h_same
  · exact Or.inr (h_edge.mono False.elim)

theorem lifeCycle_write_iff (h : Inv s) (i : ℕ) (now : ℤ) :
    LifeCycle s (.write i now) (step env matching s (.write i now)) ↔ Timely s (.write i now) := by
  unfold Lifecycle.step
  dsimp only
  cases h_save : s.saves[i]? with
  | none =>
    refine iff_of_true (lifeCycle_of_allMoved (.refl _)) ?_
    intro p h_some
    rw [h_save] at h_some
    cases h_some
  | some p =>
    obtain ⟨k, save⟩ := p
    have h_ok : SaveOk save := h.saves (k, save) (List.mem_of_getElem? h_save)
    dsimp only
    constructor
    · intro h_law p h_some alert h_alert st h_st
      rw [h_save] at h_some
      cases h_some
      rw [Option.mem_def] at h_alert h_st
      obtain ⟨alert', h_alert', h_status⟩ := h_law k alert h_alert
      have h_row : (Table.modify s.store.db.alerts k (save.apply now)).lookup k = some alert' := by
        rw [← writeSave_alerts]
        exact h_alert'
      rw [Table.lookup_modify_self, h_alert] at h_row
      -- the row has the status of the save now
      have h_written : alert'.status = st := by
        rw [← Option.some.inj h_row]
        show save.status.getD alert.status = st
        rw [h_st]
        rfl
      rcases h_status with h_same | h_edge
      · exact Or.inr (h_same.symm.trans h_written)
      · exact Or.inl h_edge.isActive
    · intro h_timely k' alert h_alert
      by_cases h_key : k' = k
      · subst h_key
        refine ⟨save.apply now alert, ?_, ?_⟩
        · show (writeSave k' save now s.store.db).alerts.lookup k' = _
          rw [writeSave_alerts, Table.lookup_modify_self, h_alert]
          rfl
        · cases h_st : save.status with
          | none =>
            refine Or.inl ?_
            show save.status.getD alert.status = alert.status
            rw [h_st]
            rfl
          | some st =>
            have h_status : (save.apply now alert).status = st := by
              show save.status.getD alert.status = st
              rw [h_st]
              rfl
            rw [h_status]
            rcases h_timely (k', save) h_save alert h_alert st h_st with h_active | h_same
            · rcases h_ok st h_st with rfl | rfl
              · exact Or.inr (.autoRecovery h_active)
              · exact Or.inr (.sessionDeleted h_active ⟨i, now, k', save, rfl, h_save, h_st⟩)
            · exact Or.inl h_same.symm
      · refine ⟨alert, ?_, Or.inl rfl⟩
        show (writeSave k save now s.store.db).alerts.lookup k' = _
        rw [writeSave_alerts, Table.lookup_modify_ne _ _ h_key, h_alert]

theorem allMoved_step (h : Inv s) (a : Step) (h_locked : ∀ i now, a ≠ .write i now) :
    AllMoved s.store.db.alerts (step env matching s a).store.db.alerts := by
  cases a with
  | write i now => exact absurd rfl (h_locked i now)
  | receive eid e =>
    unfold Lifecycle.step
    dsimp only
    split_ifs <;> exact .refl _
  | operate op clock action alertId data =>
    exact allMoved_operate (operateDb_effect op clock action alertId data s.store.db)
  | aggregate i now =>
    unfold Lifecycle.step
    dsimp only
    split
    · exact .refl _
    · exact allMoved_processResult h.below
  | link ids =>
    exact (linked_handleRecoveryEvents _ s.store).mono fun _ _ h_linked => h_linked.1
  | autoClose i now =>
    unfold Lifecycle.step
    dsimp only
    split
    · exact .refl _
    · exact allMoved_autoCloseAlert _ now s.store.db
  | refresh i =>
    unfold Lifecycle.step
    dsimp only
    split <;> exact .refl _
  | check i =>
    unfold Lifecycle.step
    dsimp only
    split <;> exact .refl _
  | readMissing strategy now =>
    unfold Lifecycle.step
    dsimp only
    split <;> exact .refl _
  | _ => exact .refl _

theorem lifeCycle_step_iff (h : Inv s) (a : Step) :
    LifeCycle s a (step env matching s a) ↔ Timely s a := by
  cases a with
  | write i now => exact lifeCycle_write_iff h i now
  | _ => exact iff_of_true (lifeCycle_of_allMoved (allMoved_step h _ (by simp))) trivial

/-! ### Runs -/

theorem status_stays {k : AlertId} {alert : Alert} {as : List Step}
    (h_law : Runs.Along (step env matching) LifeCycle s as)
    (h_alert : s.store.db.alerts.lookup k = some alert) (h_left : ¬alert.status.IsActive) :
    ∃ alert', (Runs.run (step env matching) s as).store.db.alerts.lookup k = some alert' ∧
      alert'.status = alert.status := by
  have h_inv := h_law.invariant
    (I := fun s => ∃ alert', s.store.db.alerts.lookup k = some alert' ∧
      alert'.status = alert.status) ?_ ⟨alert, h_alert, rfl⟩
  · exact h_inv
  rintro s a ⟨alert₁, h_row, h_status⟩ h_here
  obtain ⟨alert₂, h_row', h_moved⟩ := h_here k alert₁ h_row
  refine ⟨alert₂, h_row', ?_⟩
  rcases h_moved with h_same | h_edge
  · exact h_same.trans h_status
  · -- no edge leaves the status
    rw [h_status] at h_edge
    exact absurd h_edge.isActive h_left

/-- **Life cycle.** It is kept exactly if every unlocked write finds its alert active or in the
status that it writes. -/
theorem lifeCycle_iff (env : Env) (matching : Matches) (s : State) (as : List Step)
    (h_start : Inv s) :
    (Runs.Along (step env matching) LifeCycle s as ∧ StaysLeft (step env matching) s as) ↔
      Runs.Along (step env matching) (fun s a _ => Timely s a) s as := by
  have h_steps : Runs.Along (step env matching) LifeCycle s as ↔
      Runs.Along (step env matching) (fun s a _ => Timely s a) s as := by
    apply Runs.along_iff (G := fun _ _ _ => True) (I := Inv) _ _ h_start
    · exact Runs.along_of_step (I := fun _ => True) (fun _ _ _ => ⟨trivial, trivial⟩) trivial as
    · intro s a h _
      exact ⟨lifeCycle_step_iff h a, fun _ => h.step a⟩
  constructor
  · rintro ⟨h_law, -⟩
    exact h_steps.mp h_law
  · intro h_timely
    have h_law := h_steps.mpr h_timely
    refine ⟨h_law, ?_⟩
    rintro pre mid ⟨post, rfl⟩ k alert h_alert h_left
    rw [Runs.run_append]
    obtain ⟨h_mid, -⟩ := Runs.along_append.mp h_law
    exact status_stays (Runs.along_append.mp h_mid).2 h_alert h_left

end Steps

/-! ### A check that comes late -/

def plainEnv : Aggregation.Env where
  md5 := id
  castLevel _ := none
  dumps _ := ""
  alertLevels := []

/-- An alert that `u` works on, and a recovery of its event. -/
def beforeRecovery : State where
  store :=
    { events := (∅ : Table EventId Event)
        |>.insert 0 { externalId := some "cpu", startTime := 0 }
        |>.insert 1 { externalId := some "cpu", startTime := 5, action := .recovery }
      db :=
        { alerts := (∅ : Table AlertId Alert).insert 0
            { status := .processing, operator := [.str "u"], events := [0] }
          assignments := ∅, escalations := ∅, reminders := ∅, users := [], outbox := [] }
      nextAlertId := 1 }

/-- `u` closes the alert. -/
def closing : Step :=
  .operate { user := "u" } { now := 6, reminder := 6, escalation := 6 } .close 0 {}

theorem inv_beforeRecovery : Inv beforeRecovery := by
  refine ⟨fun k h_k => ?_, fun p h_p => absurd h_p List.not_mem_nil⟩
  exact AList.lookup_insert_ne (Nat.ne_of_gt h_k)

/-- The check saves before the operator closes, who is refused then. -/
theorem lifeCycle_inTime :
    Runs.Along (step plainEnv fun _ _ _ => false) LifeCycle beforeRecovery
        [.link [1], .refresh 0, .check 0, .write 0 7, closing] ∧
      StaysLeft (step plainEnv fun _ _ _ => false) beforeRecovery
        [.link [1], .refresh 0, .check 0, .write 0 7, closing] :=
  (lifeCycle_iff plainEnv (fun _ _ _ => false) beforeRecovery _ inv_beforeRecovery).mpr (by decide)

/-- **Late check.** The operator closes between the commit of the links and the check, which
turns closed into auto_recovery. -/
theorem lifeCycle_left :
    ¬(Runs.Along (step plainEnv fun _ _ _ => false) LifeCycle beforeRecovery
        [.link [1], closing, .refresh 0, .check 0, .write 0 7] ∧
      StaysLeft (step plainEnv fun _ _ _ => false) beforeRecovery
        [.link [1], closing, .refresh 0, .check 0, .write 0 7]) := by
  rintro ⟨-, h_stays⟩
  have h_closed : ((Runs.run (step plainEnv fun _ _ _ => false) beforeRecovery
      [.link [1], closing]).store.db.alerts.lookup 0).map (·.status) = some .closed := by
    decide
  have h_recovered : ((Runs.run (step plainEnv fun _ _ _ => false) beforeRecovery
      ([.link [1], closing] ++ [.refresh 0, .check 0, .write 0 7])).store.db.alerts.lookup 0).map
        (·.status) = some .autoRecovery := by
    decide
  obtain ⟨alert, h_alert, h_status⟩ := Option.map_eq_some_iff.mp h_closed
  obtain ⟨alert', h_alert', h_same⟩ := h_stays [.link [1], closing]
    [.refresh 0, .check 0, .write 0 7] List.prefix_rfl 0 alert h_alert (by rw [h_status]; decide)
  rw [h_alert', Option.map_some, h_same, h_status] at h_recovered
  cases h_recovered

end Lifecycle
end Alerts
