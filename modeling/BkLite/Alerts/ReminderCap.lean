import BkLite.Alerts.Reminder
import BkLite.Framework.Runs

/-!
# The cap on reminders

`check_and_process_reminders` under overlapping scans. A scan checks a due task in one
transaction, enqueues the notification in the commit callback and counts it in a
second transaction. Between the first transaction and the second one the row looks as
due as before, so another scan may hand over a second notification: the cap and the
spacing are lost.
-/

namespace Alerts
namespace ReminderCap

open Py Runs

abbrev ScanId := ℕ

abbrev WriterId := ℕ

structure Sent where
  /-- How often the counter had been reset by then. -/
  period : ℕ
  time : ℤ
  params : List NotifyParam

/-- The database, the scans and the config changes under way, and the history. -/
structure State where
  db : Db
  clock : ℤ
  /-- The scans whose check has committed and which have not enqueued yet. -/
  checked : List (ScanId × List NotifyParam)
  /-- The scans that have enqueued and not counted yet, with the period of the
  reminder. -/
  enqueued : List (ScanId × ℕ)
  /-- The rows that config changes have read. -/
  configReads : List (WriterId × AlertReminderTask)
  /-- How often the counter was reset. -/
  resets : ℕ
  /-- The effective maxima that checks have read before they handed a reminder over. -/
  maxima : List (ℕ × ℤ)
  sent : List Sent

def State.start (db : Db) (clock : ℤ) : State :=
  { db := db, clock := clock, checked := [], enqueued := [], configReads := [], resets := 0
    maxima := [], sent := [] }

inductive Action
  | tick (elapsed : ℕ)
  /-- The check transaction of a scan. -/
  | check (scan : ScanId)
  /-- `sync_notify.delay` in the commit callback of a scan. -/
  | enqueue (scan : ScanId)
  /-- The delivery queue is not reached. -/
  | enqueueFails (scan : ScanId)
  /-- The second transaction of a scan. -/
  | advance (scan : ScanId)
  /-- `create_reminder_task` on a row of the alert as its caller holds it. -/
  | activate (alert : Alert) (assignment : AlertAssignment)
  /-- `_reset_reminder_for_new_roster`. -/
  | resetRoster
  /-- `stop_reminder_task`. -/
  | stop
  | readConfig (writer : WriterId)
  /-- `_update_reminder_task` on the row that the writer has read. -/
  | saveConfig (writer : WriterId) (newFrequency newMaxCount : ℤ)
  /-- Whatever else writes to the other tables. -/
  | other (db : Db)

section Steps

variable (loads : String → Option Value) (k : AlertId)

def State.task (s : State) : Option AlertReminderTask := s.db.reminders.lookup k

/-- The effective maximum that a transaction reads; `none` if reading it raises. -/
def effectiveMax (db : Db) : Option ℤ := do
  let reminder ← db.reminders.lookup k
  let alert ← db.alerts.lookup k
  let assignment ← db.assignments.lookup reminder.assignmentId
  (getEffectiveMaxReminders assignment alert reminder).toOption

/-- The second transaction raises, or does not find its rows, and leaves the reminder
uncounted. -/
def advanceRaises (db : Db) : Bool :=
  (db.reminders.lookup k).any (·.isActive) &&
    (db.alerts.lookup k).all (·.status = .pending) && (effectiveMax k db).isNone

/-- `create_reminder_task` starts the task. -/
def activates (alert : Alert) (assignment : AlertAssignment) (db : Db) : Bool :=
  (frequencyConfig assignment alert.level).isSome && !(db.reminders.lookup k).any (·.isActive)

def step (s : State) : Action → State
  | .tick elapsed => { s with clock := s.clock + elapsed }
  | .check scan =>
    match checkReminder loads k s.clock s.db with
    | (db, .due params) =>
      { s with
        db := db
        checked := s.checked ++ [(scan, params)]
        maxima := s.maxima ++ ((effectiveMax k s.db).map (s.resets, ·)).toList }
    | (db, _) => { s with db := db }
  | .enqueue scan =>
    match s.checked.find? (·.1 = scan) with
    | none => s
    | some (_, params) =>
      { s with
        checked := s.checked.eraseP (·.1 = scan)
        enqueued := s.enqueued ++ [(scan, s.resets)]
        sent := s.sent ++ [{ period := s.resets, time := s.clock, params := params }] }
  | .enqueueFails scan => { s with checked := s.checked.eraseP (·.1 = scan) }
  | .advance scan =>
    if (s.enqueued.find? (·.1 = scan)).isNone || advanceRaises k s.db then s
    else
      { s with
        db := advanceReminderAfterEnqueue k s.clock s.db
        enqueued := s.enqueued.eraseP (·.1 = scan) }
  | .activate alert assignment =>
    { s with
      db := createReminderTask k alert assignment s.clock s.db
      resets := if activates k alert assignment s.db then s.resets + 1 else s.resets }
  | .resetRoster =>
    { s with
      db := resetReminderForNewRoster k s.clock s.db
      resets := if (s.task k).isSome then s.resets + 1 else s.resets }
  | .stop => { s with db := stopReminderTask k s.db }
  | .readConfig writer =>
    { s with configReads := ((s.task k).map (writer, ·)).toList ++ s.configReads }
  | .saveConfig writer newFrequency newMaxCount =>
    match s.configReads.find? (·.1 = writer) with
    | none => s
    | some (_, read) =>
      let saved := updateReminderTask read newFrequency newMaxCount s.clock
      { s with db := { s.db with reminders := s.db.reminders.insert k saved } }
  | .other db => { s with db := { db with reminders := s.db.reminders } }

def HandsOver (s : State) : Prop :=
  ∃ db params, checkReminder loads k s.clock s.db = (db, .due params)

/-- Every reminder handed over is enqueued, and every one enqueued since the last
reset is counted. -/
def Settled (s : State) : Prop :=
  s.checked = [] ∧ ∀ e ∈ s.enqueued, e.2 ≠ s.resets

/-- The condition on a step. -/
def Apart (s : State) : Action → State → Prop
  | .check _, _ => HandsOver loads k s → Settled s
  | .saveConfig writer _ _, _ =>
    ∀ entry, s.configReads.find? (·.1 = writer) = some entry → s.task k = some entry.2
  | _, _ => True

/-! ### The two properties -/

def sentIn (s : State) (period : ℕ) : ℕ := s.sent.countP (·.period = period)

/-- Where every maximum read in a period is positive and at most `max`, the period has
at most `max` reminders. -/
def Capped (s : State) : Prop :=
  ∀ period max, 0 < max → (∀ m, (period, m) ∈ s.maxima → 0 < m ∧ m ≤ max) →
    (sentIn s period : ℤ) ≤ max

/-- Any two reminders are `frequency` minutes apart. -/
def Spaced (frequency : ℤ) (s : State) : Prop :=
  s.sent.Pairwise fun a b => a.time + minutes frequency ≤ b.time

def FrequencyAtLeast (frequency : ℤ) (s : State) : Prop :=
  ∀ task, s.task k = some task → frequency ≤ task.currentFrequencyMinutes

end Steps

/-! ### What a step can do -/

section Effect

variable {loads : String → Option Value} {k : AlertId} {s t : State}

def Idle (k : AlertId) (s : State) : Prop :=
  ∀ task, s.task k = some task → task.isActive = false

/-- What a step does to the task and to the history. -/
inductive Effect (k : AlertId) (s t : State) : Prop
  /-- At most the task is deactivated and scans are forgotten. -/
  | quiet (clock : s.clock ≤ t.clock) (checked : t.checked.length ≤ s.checked.length)
      (task : t.task k = s.task k ∧ t.enqueued = s.enqueued ∨ Idle k t)
      (enqueued : t.enqueued ⊆ s.enqueued) (resets : t.resets = s.resets) (maxima : t.maxima = s.maxima) (sent : t.sent = s.sent)
  /-- A check hands over a reminder. -/
  | handOver (task : AlertReminderTask) (max : ℤ) (found : s.task k = some task)
      (active : task.isActive = true) (due : task.nextReminderTime ≤ s.clock)
      (below : 0 < max → task.reminderCount < max) (settled : Settled s)
      (same : t.task k = s.task k) (clock : t.clock = s.clock)
      (checked : t.checked.length = 1) (enqueued : t.enqueued = s.enqueued)
      (resets : t.resets = s.resets) (maxima : t.maxima = s.maxima ++ [(s.resets, max)])
      (sent : t.sent = s.sent)
  /-- A reminder is enqueued. -/
  | enqueue (scan : ScanId) (params : List NotifyParam) (same : t.task k = s.task k)
      (clock : t.clock = s.clock) (checked : t.checked.length + 1 = s.checked.length)
      (enqueued : t.enqueued = s.enqueued ++ [(scan, s.resets)])
      (resets : t.resets = s.resets) (maxima : t.maxima = s.maxima)
      (sent : t.sent = s.sent ++ [{ period := s.resets, time := s.clock, params := params }])
  /-- A reminder is counted. -/
  | count (scan : ScanId) (before after : AlertReminderTask) (found : s.task k = some before)
      (counted : after.reminderCount = before.reminderCount + 1)
      (last : after.lastReminderTime = some s.clock)
      (next : after.isActive = true →
        before.isActive = true ∧
          after.nextReminderTime = s.clock + minutes after.currentFrequencyMinutes)
      (left : t.task k = some after) (clock : t.clock = s.clock)
      (checked : t.checked = s.checked)
      (enqueued : t.enqueued = s.enqueued.eraseP (·.1 = scan))
      (resets : t.resets = s.resets) (maxima : t.maxima = s.maxima) (sent : t.sent = s.sent)
  /-- The counter starts from zero. -/
  | reset (task : AlertReminderTask) (zero : task.reminderCount = 0)
      (last : task.lastReminderTime = none)
      (next : task.nextReminderTime = s.clock + minutes task.currentFrequencyMinutes)
      (left : t.task k = some task) (clock : t.clock = s.clock)
      (checked : t.checked = s.checked) (enqueued : t.enqueued = s.enqueued)
      (resets : t.resets = s.resets + 1) (maxima : t.maxima = s.maxima) (sent : t.sent = s.sent)
  /-- The task gets a new frequency and a new maximum. -/
  | configure (task : AlertReminderTask) (newFrequency newMaxCount : ℤ)
      (found : s.task k = some task)
      (left : t.task k = some (updateReminderTask task newFrequency newMaxCount s.clock))
      (clock : t.clock = s.clock) (checked : t.checked = s.checked)
      (enqueued : t.enqueued = s.enqueued) (resets : t.resets = s.resets)
      (maxima : t.maxima = s.maxima) (sent : t.sent = s.sent)

theorem checkReminder_due {now : ℤ} {db db' : Db} {params : List NotifyParam}
    (h : checkReminder loads k now db = (db', .due params)) :
    db' = db ∧ ∃ task max, db.reminders.lookup k = some task ∧ task.isActive = true ∧
      task.nextReminderTime ≤ now ∧ effectiveMax k db = some max ∧
      (0 < max → task.reminderCount < max) := by
  unfold checkReminder at h
  cases h_task : db.reminders.lookup k with
  | none => simp [h_task] at h
  | some task =>
  cases h_alert : db.alerts.lookup k with
  | none => simp [h_task, h_alert] at h
  | some alert =>
  simp only [h_task, h_alert] at h
  split_ifs at h with h_due h_pending
  · cases h
  · cases h
  rw [not_or, not_lt] at h_due
  have h_active : task.isActive = true := by simpa using h_due.1
  cases h_assignment : db.assignments.lookup task.assignmentId with
  | none => simp [h_assignment] at h
  | some assignment =>
  simp only [h_assignment] at h
  cases h_max : getEffectiveMaxReminders assignment alert task with
  | error e => simp [h_max] at h
  | ok max =>
  simp only [h_max] at h
  split_ifs at h with h_reached
  · cases h
  have h_effective : effectiveMax k db = some max := by
    simp [effectiveMax, h_task, h_alert, h_assignment, h_max, Except.toOption]
  have h_below : 0 < max → task.reminderCount < max := by
    intro h_limited
    exact not_le.mp fun h_le => h_reached ⟨h_limited, h_le⟩
  split at h
  · cases h
    exact ⟨rfl, task, max, rfl, h_active, h_due.2, h_effective, h_below⟩
  · cases h

theorem checkReminder_fst (loads : String → Option Value) (now : ℤ) (db : Db) :
    (checkReminder loads k now db).1 = db ∨ (checkReminder loads k now db).1 = stopReminderTask k db := by
  unfold checkReminder
  repeat' split
  all_goals first | exact Or.inl rfl | exact Or.inr rfl

/-- The second transaction does nothing to a task that is not active, deactivates the
task, or counts the reminder. -/
theorem advanceReminderAfterEnqueue_cases (now : ℤ) {db : Db}
    (h_raises : advanceRaises k db = false) :
    (advanceReminderAfterEnqueue k now db = db ∧
        ∀ task, db.reminders.lookup k = some task → task.isActive = false) ∨
      advanceReminderAfterEnqueue k now db = stopReminderTask k db ∨
      ∃ before after : AlertReminderTask, db.reminders.lookup k = some before ∧
        after.reminderCount = before.reminderCount + 1 ∧ after.lastReminderTime = some now ∧
        (after.isActive = true → before.isActive = true ∧
          after.nextReminderTime = now + minutes after.currentFrequencyMinutes) ∧
        advanceReminderAfterEnqueue k now db =
          { db with reminders := db.reminders.insert k after } := by
  unfold advanceReminderAfterEnqueue
  cases h_task : db.reminders.lookup k with
  | none => exact Or.inl ⟨rfl, fun task h => by cases h⟩
  | some task =>
  by_cases h_active : task.isActive = true
  swap
  · have h_idle : task.isActive = false := Bool.eq_false_iff.mpr h_active
    refine Or.inl ⟨?_, ?_⟩
    · split
      next h _ =>
        cases h
        simp [h_idle]
      · rfl
    · rintro _ ⟨⟩
      exact h_idle
  cases h_alert : db.alerts.lookup k with
  | none =>
    simp [advanceRaises, effectiveMax, h_task, h_alert, h_active] at h_raises
  | some alert =>
  simp only [h_active, Bool.not_true, Bool.false_eq_true, if_false]
  by_cases h_pending : alert.status = .pending
  swap
  · rw [if_pos h_pending]
    exact Or.inr (Or.inl rfl)
  rw [if_neg (not_not_intro h_pending)]
  -- an active task of a pending alert: reading the maximum does not raise
  have h_reads : (effectiveMax k db).isSome := by
    simpa [advanceRaises, h_task, h_alert, h_active, h_pending, Option.isSome_iff_ne_none]
      using h_raises
  cases h_assignment : db.assignments.lookup task.assignmentId with
  | none => simp [effectiveMax, h_task, h_alert, h_assignment] at h_reads
  | some assignment =>
  cases h_max : getEffectiveMaxReminders assignment alert task with
  | error e =>
    simp [effectiveMax, h_task, h_alert, h_assignment, h_max, Except.toOption] at h_reads
  | ok max =>
  simp only [h_max]
  split_ifs
  · exact Or.inr (Or.inl rfl)
  · exact Or.inr (Or.inr ⟨task, _, rfl, rfl, rfl, fun _ => ⟨h_active, rfl⟩, rfl⟩)
  · refine Or.inr (Or.inr ⟨task, _, rfl, rfl, rfl, fun h => ?_, rfl⟩)
    cases h

theorem idle_of_stop {db : Db} (h : t.db = stopReminderTask k db) : Idle k t := by
  intro task h_task
  unfold State.task at h_task
  rw [h] at h_task
  obtain ⟨before, -, h_eq⟩ := Table.lookup_modify_eq_some h_task
  rw [if_pos rfl] at h_eq
  rw [h_eq]

theorem effect_check (scan : ScanId) (h : Apart loads k s (.check scan) t) :
    Effect k s (step loads k s (.check scan)) := by
  unfold step
  dsimp only
  split
  next db params h_check =>
    obtain ⟨rfl, task, max, h_task, h_active, h_due, h_max, h_below⟩ := checkReminder_due h_check
    have h_settled : Settled s := h ⟨_, _, h_check⟩
    refine .handOver task max h_task h_active h_due h_below h_settled rfl rfl ?_ rfl rfl ?_ rfl
    · rw [h_settled.1]
      rfl
    · rw [h_max]
      rfl
  next db outcome _ h_check =>
    have h_fst := checkReminder_fst (k := k) loads s.clock s.db
    rw [h_check] at h_fst
    rcases h_fst with rfl | h_stop
    · exact .quiet le_rfl le_rfl (Or.inl ⟨rfl, rfl⟩) (List.Subset.refl _) rfl rfl rfl
    · exact .quiet le_rfl le_rfl (Or.inr (idle_of_stop h_stop)) (List.Subset.refl _) rfl rfl rfl

theorem effect_enqueue (scan : ScanId) : Effect k s (step loads k s (.enqueue scan)) := by
  unfold step
  dsimp only
  split
  · exact .quiet le_rfl le_rfl (Or.inl ⟨rfl, rfl⟩) (List.Subset.refl _) rfl rfl rfl
  next entry params h_find =>
    refine .enqueue scan params rfl rfl ?_ rfl rfl rfl rfl
    have h_mem := List.mem_of_find?_eq_some h_find
    have h_scan := List.find?_some h_find
    rw [List.length_eraseP_of_mem h_mem h_scan]
    exact Nat.succ_pred_eq_of_pos (List.length_pos_of_mem h_mem)

theorem effect_advance (scan : ScanId) : Effect k s (step loads k s (.advance scan)) := by
  unfold step
  dsimp only
  split_ifs with h_stays
  · exact .quiet le_rfl le_rfl (Or.inl ⟨rfl, rfl⟩) (List.Subset.refl _) rfl rfl rfl
  have h_raises : advanceRaises k s.db = false := by
    rw [Bool.not_eq_true, Bool.or_eq_false_iff] at h_stays
    exact h_stays.2
  rcases advanceReminderAfterEnqueue_cases s.clock h_raises with
    ⟨h_same, h_idle⟩ | h_stop | ⟨before, after, h_before, h_count, h_last, h_next, h_after⟩
  · refine .quiet le_rfl le_rfl (Or.inr ?_) List.eraseP_sublist.subset rfl rfl rfl
    unfold Idle State.task
    rw [h_same]
    exact h_idle
  · exact .quiet le_rfl le_rfl (Or.inr (idle_of_stop h_stop)) List.eraseP_sublist.subset rfl rfl
      rfl
  · refine .count scan before after h_before h_count h_last h_next ?_ rfl rfl rfl rfl rfl rfl
    unfold State.task
    rw [h_after]
    exact AList.lookup_insert _

theorem effect_activate (alert : Alert) (assignment : AlertAssignment) :
    Effect k s (step loads k s (.activate alert assignment)) := by
  unfold step activates createReminderTask
  dsimp only
  cases frequencyConfig assignment alert.level with
  | none => exact .quiet le_rfl le_rfl (Or.inl ⟨rfl, rfl⟩) (List.Subset.refl _) rfl rfl rfl
  | some config =>
    by_cases h_active : (s.db.reminders.lookup k).any (·.isActive) = true
    · simp only [h_active, if_true, Option.isSome_some, Bool.not_true, Bool.and_false,
        Bool.false_eq_true, if_false]
      exact .quiet le_rfl le_rfl (Or.inl ⟨rfl, rfl⟩) (List.Subset.refl _) rfl rfl rfl
    · simp only [h_active, Option.isSome_some, Bool.true_and, Bool.not_false, if_true,
        Bool.false_eq_true, if_false]
      refine .reset _ rfl rfl rfl (AList.lookup_insert _) rfl rfl rfl rfl rfl rfl

theorem effect_resetRoster : Effect k s (step loads k s .resetRoster) := by
  cases h_task : s.task k with
  | none =>
    have h_same : (step loads k s .resetRoster).task k = s.task k := by
      show (Table.modify s.db.reminders k _).lookup k = s.task k
      rw [Table.lookup_modify_self, ← State.task, h_task]
      rfl
    refine .quiet le_rfl le_rfl (Or.inl ⟨h_same, rfl⟩) (List.Subset.refl _) ?_ rfl rfl
    simp [step, h_task]
  | some task =>
    refine .reset { task with
        reminderCount := 0
        isActive := true
        lastReminderTime := none
        nextReminderTime := s.clock + minutes task.currentFrequencyMinutes }
      rfl rfl rfl ?_ rfl rfl rfl ?_ rfl rfl
    · show (Table.modify s.db.reminders k _).lookup k = _
      rw [Table.lookup_modify_self, ← State.task, h_task]
      rfl
    · simp [step, h_task]

theorem effect_saveConfig (writer : WriterId) (newFrequency newMaxCount : ℤ)
    (h : Apart loads k s (.saveConfig writer newFrequency newMaxCount) t) :
    Effect k s (step loads k s (.saveConfig writer newFrequency newMaxCount)) := by
  unfold step
  dsimp only
  split
  · exact .quiet le_rfl le_rfl (Or.inl ⟨rfl, rfl⟩) (List.Subset.refl _) rfl rfl rfl
  next entry read h_find =>
    exact .configure read newFrequency newMaxCount (h _ h_find) (AList.lookup_insert _) rfl rfl rfl
      rfl rfl rfl

theorem step_effect (a : Action) (h : Apart loads k s a (step loads k s a)) : Effect k s (step loads k s a) := by
  cases a with
  | tick elapsed =>
    have h_clock : s.clock ≤ s.clock + elapsed := Int.le_add_of_nonneg_right (Int.natCast_nonneg _)
    exact .quiet h_clock le_rfl (Or.inl ⟨rfl, rfl⟩) (List.Subset.refl _) rfl rfl rfl
  | check scan => exact effect_check scan h
  | enqueue scan => exact effect_enqueue scan
  | enqueueFails scan =>
    exact .quiet le_rfl List.eraseP_sublist.length_le (Or.inl ⟨rfl, rfl⟩) (List.Subset.refl _) rfl rfl rfl
  | advance scan => exact effect_advance scan
  | activate alert assignment => exact effect_activate alert assignment
  | resetRoster => exact effect_resetRoster
  | stop => exact .quiet le_rfl le_rfl (Or.inr (idle_of_stop rfl)) (List.Subset.refl _) rfl rfl rfl
  | readConfig writer => exact .quiet le_rfl le_rfl (Or.inl ⟨rfl, rfl⟩) (List.Subset.refl _) rfl rfl rfl
  | saveConfig writer newFrequency newMaxCount =>
    exact effect_saveConfig writer newFrequency newMaxCount h
  | other db => exact .quiet le_rfl le_rfl (Or.inl ⟨rfl, rfl⟩) (List.Subset.refl _) rfl rfl rfl

end Effect

/-! ### The cap -/

section Cap

variable {k : AlertId} {s t : State}

def uncounted (s : State) : ℕ := s.enqueued.countP (·.2 = s.resets)

/-- The counter keeps up with the period, and a reminder handed over fits under the
cap. -/
structure Counted (k : AlertId) (s : State) : Prop where
  one : s.checked.length ≤ 1
  periods : (∀ x ∈ s.sent, x.period ≤ s.resets) ∧ ∀ e ∈ s.enqueued, e.2 ≤ s.resets
  keepsUp : ∀ task, s.task k = some task → task.isActive = true →
    (sentIn s s.resets : ℤ) ≤ task.reminderCount + uncounted s
  capped : ∀ period max, 0 < max → (∀ m, (period, m) ∈ s.maxima → 0 < m ∧ m ≤ max) →
    ((sentIn s period + if period = s.resets then s.checked.length else 0 : ℕ) : ℤ) ≤ max

theorem Counted.start {db : Db} {clock : ℤ} (h_new : db.reminders.lookup k = none) :
    Counted k (.start db clock) where
  one := Nat.zero_le _
  periods := ⟨fun _ h => absurd h List.not_mem_nil, fun _ h => absurd h List.not_mem_nil⟩
  keepsUp := by
    intro task h_task
    have h_none : (State.start db clock).task k = none := h_new
    rw [h_none] at h_task
    cases h_task
  capped := by
    intro period max h_max _
    have h_none : (sentIn (State.start db clock) period +
        if period = 0 then (State.start db clock).checked.length else 0 : ℕ) = 0 := by
      split_ifs <;> rfl
    rw [show (State.start db clock).resets = 0 from rfl, h_none]
    exact h_max.le

theorem countP_le_eraseP {α : Type*} (p q : α → Bool) (xs : List α) :
    xs.countP p ≤ (xs.eraseP q).countP p + 1 := by
  induction xs with
  | nil => exact Nat.zero_le _
  | cons x xs ih =>
    rw [List.eraseP_cons, List.countP_cons]
    cases q x with
    | true =>
      rw [cond_true]
      split_ifs <;> omega
    | false =>
      rw [cond_false, List.countP_cons]
      omega

theorem uncounted_of_settled (h : Settled s) : uncounted s = 0 := by
  unfold uncounted
  rw [List.countP_eq_zero]
  intro e h_mem
  simpa using h.2 e h_mem

theorem Counted.quiet (h : Counted k s) (h_checked : t.checked.length ≤ s.checked.length)
    (h_task : t.task k = s.task k ∧ t.enqueued = s.enqueued ∨ Idle k t)
    (h_enqueued : t.enqueued ⊆ s.enqueued) (h_resets : t.resets = s.resets)
    (h_maxima : t.maxima = s.maxima) (h_sent : t.sent = s.sent) : Counted k t where
  one := h_checked.trans h.one
  periods := by
    rw [h_sent, h_resets]
    exact ⟨h.periods.1, fun e h_mem => h.periods.2 e (h_enqueued h_mem)⟩
  keepsUp := by
    intro task h_found h_active
    rcases h_task with ⟨h_same, h_list⟩ | h_idle
    · unfold sentIn uncounted
      rw [h_sent, h_list, h_resets]
      exact h.keepsUp task (h_same ▸ h_found) h_active
    · rw [h_idle task h_found] at h_active
      cases h_active
  capped := by
    intro period max h_max h_read
    rw [h_maxima] at h_read
    have h_before := h.capped period max h_max h_read
    unfold sentIn at h_before ⊢
    rw [h_sent, h_resets]
    split_ifs at h_before ⊢ <;> omega

theorem Counted.handOver (h : Counted k s) {task : AlertReminderTask} {max : ℤ}
    (h_found : s.task k = some task) (h_active : task.isActive = true)
    (h_below : 0 < max → task.reminderCount < max) (h_settled : Settled s)
    (h_same : t.task k = s.task k) (h_checked : t.checked.length = 1)
    (h_enqueued : t.enqueued = s.enqueued) (h_resets : t.resets = s.resets)
    (h_maxima : t.maxima = s.maxima ++ [(s.resets, max)]) (h_sent : t.sent = s.sent) :
    Counted k t where
  one := h_checked.le
  periods := by
    rw [h_sent, h_resets, h_enqueued]
    exact h.periods
  keepsUp := by
    unfold sentIn uncounted
    rw [h_same, h_sent, h_enqueued, h_resets]
    exact h.keepsUp
  capped := by
    intro period bound h_bound h_read
    have h_old : ∀ m, (period, m) ∈ s.maxima → 0 < m ∧ m ≤ bound := by
      intro m h_mem
      apply h_read
      rw [h_maxima]
      exact List.mem_append_left _ h_mem
    have h_before := h.capped period bound h_bound h_old
    have h_same_sent : sentIn t period = sentIn s period := by
      unfold sentIn
      rw [h_sent]
    rw [h_same_sent, h_resets, h_checked]
    rw [h_settled.1] at h_before
    by_cases h_now : period = s.resets
    · -- the counter is below the maximum, and nothing is uncounted
      have h_new : 0 < max ∧ max ≤ bound := by
        apply h_read
        rw [h_maxima, h_now]
        exact List.mem_append_right _ List.mem_cons_self
      have h_keeps := h.keepsUp task h_found h_active
      rw [uncounted_of_settled h_settled] at h_keeps
      have h_count := h_below h_new.1
      rw [h_now, if_pos rfl]
      push_cast at h_keeps ⊢
      omega
    · rw [if_neg h_now] at h_before ⊢
      exact h_before

theorem Counted.enqueue (h : Counted k s) {scan : ScanId} {params : List NotifyParam}
    (h_same : t.task k = s.task k) (h_checked : t.checked.length + 1 = s.checked.length)
    (h_enqueued : t.enqueued = s.enqueued ++ [(scan, s.resets)]) (h_resets : t.resets = s.resets)
    (h_maxima : t.maxima = s.maxima)
    (h_sent : t.sent = s.sent ++ [{ period := s.resets, time := s.clock, params := params }]) :
    Counted k t where
  one := by
    have h_one := h.one
    omega
  periods := by
    rw [h_sent, h_enqueued, h_resets]
    refine ⟨fun x h_mem => ?_, fun e h_mem => ?_⟩
    · rcases List.mem_append.mp h_mem with h_old | h_new
      · exact h.periods.1 x h_old
      · rw [List.mem_singleton.mp h_new]
    · rcases List.mem_append.mp h_mem with h_old | h_new
      · exact h.periods.2 e h_old
      · rw [List.mem_singleton.mp h_new]
  keepsUp := by
    intro task h_found h_active
    have h_keeps := h.keepsUp task (h_same ▸ h_found) h_active
    unfold sentIn uncounted at h_keeps ⊢
    rw [h_sent, h_enqueued, h_resets, List.countP_append, List.countP_append,
      List.countP_singleton, List.countP_singleton]
    simp only [decide_true, if_true]
    omega
  capped := by
    intro period bound h_bound h_read
    rw [h_maxima] at h_read
    have h_before := h.capped period bound h_bound h_read
    unfold sentIn at h_before ⊢
    rw [h_sent, h_resets, List.countP_append, List.countP_singleton]
    -- the reminder moves from the list of the checked to the sent ones of this period
    by_cases h_now : period = s.resets
    · subst h_now
      simp only [decide_true, if_true] at h_before ⊢
      omega
    · have h_later : ¬s.resets = period := fun h_eq => h_now h_eq.symm
      simp only [h_now, h_later, decide_false, if_false, Bool.false_eq_true] at h_before ⊢
      exact h_before

theorem Counted.count (h : Counted k s) {scan : ScanId} {before after : AlertReminderTask}
    (h_found : s.task k = some before) (h_counted : after.reminderCount = before.reminderCount + 1)
    (h_active : after.isActive = true → before.isActive = true) (h_left : t.task k = some after)
    (h_checked : t.checked = s.checked) (h_enqueued : t.enqueued = s.enqueued.eraseP (·.1 = scan))
    (h_resets : t.resets = s.resets) (h_maxima : t.maxima = s.maxima) (h_sent : t.sent = s.sent) :
    Counted k t where
  one := by
    rw [h_checked]
    exact h.one
  periods := by
    rw [h_sent, h_resets, h_enqueued]
    exact ⟨h.periods.1, fun e h_mem => h.periods.2 e (List.mem_of_mem_eraseP h_mem)⟩
  keepsUp := by
    intro task h_task h_running
    rw [h_left] at h_task
    obtain rfl := Option.some.inj h_task
    have h_keeps := h.keepsUp before h_found (h_active h_running)
    have h_erase := countP_le_eraseP (fun e : ScanId × ℕ => decide (e.2 = s.resets))
      (fun e => decide (e.1 = scan)) s.enqueued
    unfold sentIn uncounted at h_keeps ⊢
    rw [h_sent, h_enqueued, h_resets, h_counted]
    omega
  capped := by
    unfold sentIn
    rw [h_sent, h_resets, h_maxima, h_checked]
    exact h.capped

theorem Counted.reset (h : Counted k s) {task : AlertReminderTask}
    (h_zero : task.reminderCount = 0) (h_left : t.task k = some task)
    (h_checked : t.checked = s.checked) (h_enqueued : t.enqueued = s.enqueued)
    (h_resets : t.resets = s.resets + 1) (h_maxima : t.maxima = s.maxima)
    (h_sent : t.sent = s.sent) : Counted k t := by
  have h_none : sentIn t t.resets = 0 := by
    unfold sentIn
    rw [h_sent, h_resets, List.countP_eq_zero]
    intro x h_mem
    have h_period := h.periods.1 x h_mem
    simp only [decide_eq_true_eq]
    omega
  refine ⟨?_, ?_, ?_, ?_⟩
  · rw [h_checked]
    exact h.one
  · rw [h_sent, h_resets, h_enqueued]
    exact ⟨fun x h_mem => (h.periods.1 x h_mem).trans (Nat.le_succ _),
      fun e h_mem => (h.periods.2 e h_mem).trans (Nat.le_succ _)⟩
  · intro task' h_task _
    rw [h_left] at h_task
    obtain rfl := Option.some.inj h_task
    rw [h_none, h_zero]
    exact Int.le_add_of_nonneg_right (Int.natCast_nonneg _)
  · intro period bound h_bound h_read
    rw [h_maxima] at h_read
    have h_before := h.capped period bound h_bound h_read
    have h_one := h.one
    by_cases h_now : period = t.resets
    · rw [h_now, h_none, if_pos rfl, h_checked]
      omega
    · unfold sentIn at h_before ⊢
      rw [if_neg h_now, h_sent]
      split_ifs at h_before <;> omega

theorem Counted.configure (h : Counted k s) {task : AlertReminderTask}
    {newFrequency newMaxCount now : ℤ} (h_found : s.task k = some task)
    (h_left : t.task k = some (updateReminderTask task newFrequency newMaxCount now))
    (h_checked : t.checked = s.checked) (h_enqueued : t.enqueued = s.enqueued)
    (h_resets : t.resets = s.resets) (h_maxima : t.maxima = s.maxima)
    (h_sent : t.sent = s.sent) : Counted k t where
  one := by
    rw [h_checked]
    exact h.one
  periods := by
    rw [h_sent, h_resets, h_enqueued]
    exact h.periods
  keepsUp := by
    intro task' h_task h_active
    rw [h_left] at h_task
    obtain rfl := Option.some.inj h_task
    rw [updateReminderTask_isActive] at h_active
    rw [updateReminderTask_reminderCount]
    unfold sentIn uncounted
    rw [h_sent, h_enqueued, h_resets]
    exact h.keepsUp task h_found h_active
  capped := by
    unfold sentIn
    rw [h_sent, h_resets, h_maxima, h_checked]
    exact h.capped

theorem Counted.step (h : Counted k s) (h_effect : Effect k s t) : Counted k t := by
  cases h_effect with
  | quiet _ h_checked h_task h_enqueued h_resets h_maxima h_sent =>
    exact h.quiet h_checked h_task h_enqueued h_resets h_maxima h_sent
  | handOver task max h_found h_active _ h_below h_settled h_same _ h_checked h_enqueued h_resets
      h_maxima h_sent =>
    exact h.handOver h_found h_active h_below h_settled h_same h_checked h_enqueued h_resets
      h_maxima h_sent
  | enqueue scan params h_same _ h_checked h_enqueued h_resets h_maxima h_sent =>
    exact h.enqueue h_same h_checked h_enqueued h_resets h_maxima h_sent
  | count scan before after h_found h_counted _ h_next h_left _ h_checked h_enqueued h_resets
      h_maxima h_sent =>
    exact h.count h_found h_counted (fun h_active => (h_next h_active).1) h_left h_checked
      h_enqueued h_resets h_maxima h_sent
  | reset task h_zero _ _ h_left _ h_checked h_enqueued h_resets h_maxima h_sent =>
    exact h.reset h_zero h_left h_checked h_enqueued h_resets h_maxima h_sent
  | configure task newFrequency newMaxCount h_found h_left _ h_checked h_enqueued h_resets
      h_maxima h_sent =>
    exact h.configure h_found h_left h_checked h_enqueued h_resets h_maxima h_sent

theorem Counted.toCapped (h : Counted k s) : Capped s := by
  intro period bound h_bound h_read
  have h_cap := h.capped period bound h_bound h_read
  push_cast at h_cap
  split_ifs at h_cap <;> omega

end Cap

/-! ### The spacing -/

section Spacing

variable {k : AlertId} {s t : State} {frequency : ℤ}

/-- The reminders are apart, and due when they are handed over. -/
structure Timed (k : AlertId) (frequency : ℤ) (s : State) : Prop where
  past : ∀ x ∈ s.sent, x.time ≤ s.clock
  spaced : Spaced frequency s
  handedOver : s.checked ≠ [] → ∀ x ∈ s.sent, x.time + minutes frequency ≤ s.clock
  scheduled : ∀ task, s.task k = some task → task.isActive = true →
    (∀ e ∈ s.enqueued, e.2 ≠ s.resets) → ∀ x ∈ s.sent,
      x.time + minutes frequency ≤ task.nextReminderTime ∧
        ∀ last, task.lastReminderTime = some last → x.time ≤ last

theorem Timed.start {db : Db} {clock : ℤ} : Timed k frequency (.start db clock) where
  past := fun _ h => absurd h List.not_mem_nil
  spaced := List.Pairwise.nil
  handedOver := fun h => absurd rfl h
  scheduled := fun _ _ _ _ _ h => absurd h List.not_mem_nil

theorem le_updateReminderTask_next {read : AlertReminderTask} {newFrequency newMaxCount now x : ℤ}
    (h_frequency : frequency ≤ newFrequency) (h_past : x ≤ now)
    (h_next : x + minutes frequency ≤ read.nextReminderTime)
    (h_last : ∀ last, read.lastReminderTime = some last → x ≤ last) :
    x + minutes frequency ≤
      (updateReminderTask read newFrequency newMaxCount now).nextReminderTime := by
  have h_mono := minutes_mono h_frequency
  unfold updateReminderTask
  cases h_read : read.lastReminderTime with
  | none =>
    dsimp only
    split_ifs <;> dsimp only <;> omega
  | some last =>
    have h_before := h_last last h_read
    dsimp only
    split_ifs <;> dsimp only <;> omega

theorem Timed.quiet (h : Timed k frequency s) (h_clock : s.clock ≤ t.clock)
    (h_checked : t.checked.length ≤ s.checked.length)
    (h_task : t.task k = s.task k ∧ t.enqueued = s.enqueued ∨ Idle k t)
    (h_resets : t.resets = s.resets) (h_sent : t.sent = s.sent) : Timed k frequency t where
  past := by
    rw [h_sent]
    exact fun x h_mem => (h.past x h_mem).trans h_clock
  spaced := by
    unfold Spaced
    rw [h_sent]
    exact h.spaced
  handedOver := by
    intro h_some
    have h_before : s.checked ≠ [] := by
      rw [← List.length_pos_iff] at h_some ⊢
      exact h_some.trans_le h_checked
    rw [h_sent]
    exact fun x h_mem => (h.handedOver h_before x h_mem).trans h_clock
  scheduled := by
    intro task h_found h_active
    rcases h_task with ⟨h_same, h_list⟩ | h_idle
    · rw [h_list, h_resets, h_sent]
      exact h.scheduled task (h_same ▸ h_found) h_active
    · rw [h_idle task h_found] at h_active
      cases h_active

theorem Timed.schedule (h : Timed k frequency s) {task : AlertReminderTask}
    (h_left : t.task k = some task)
    (h_next : task.isActive = true →
      task.nextReminderTime = s.clock + minutes task.currentFrequencyMinutes)
    (h_last : ∀ last, task.lastReminderTime = some last → last = s.clock)
    (h_frequency : FrequencyAtLeast k frequency t) (h_clock : t.clock = s.clock)
    (h_checked : t.checked = s.checked) (h_sent : t.sent = s.sent) : Timed k frequency t where
  past := by
    rw [h_sent, h_clock]
    exact h.past
  spaced := by
    unfold Spaced
    rw [h_sent]
    exact h.spaced
  handedOver := by
    rw [h_sent, h_clock, h_checked]
    exact h.handedOver
  scheduled := by
    intro task' h_task h_active _ x h_mem
    rw [h_left] at h_task
    obtain rfl := Option.some.inj h_task
    have h_mono := minutes_mono (h_frequency task h_left)
    have h_past := h.past x (h_sent ▸ h_mem)
    refine ⟨?_, fun last h_some => ?_⟩
    · rw [h_next h_active]
      omega
    · rw [h_last last h_some]
      exact h_past

theorem Timed.enqueue (h : Timed k frequency s) (h_one : s.checked.length ≤ 1) {scan : ScanId}
    {params : List NotifyParam} (h_clock : t.clock = s.clock)
    (h_checked : t.checked.length + 1 = s.checked.length)
    (h_enqueued : t.enqueued = s.enqueued ++ [(scan, s.resets)]) (h_resets : t.resets = s.resets)
    (h_sent : t.sent = s.sent ++ [{ period := s.resets, time := s.clock, params := params }]) :
    Timed k frequency t where
  past := by
    rw [h_sent, h_clock]
    intro x h_mem
    rcases List.mem_append.mp h_mem with h_old | h_new
    · exact h.past x h_old
    · rw [List.mem_singleton.mp h_new]
  spaced := by
    have h_due : s.checked ≠ [] := by
      rw [← List.length_pos_iff]
      omega
    unfold Spaced
    rw [h_sent, List.pairwise_append]
    refine ⟨h.spaced, List.pairwise_singleton _ _, fun x h_old y h_new => ?_⟩
    rw [List.mem_singleton.mp h_new]
    exact h.handedOver h_due x h_old
  handedOver := by
    intro h_some
    rw [← List.length_pos_iff] at h_some
    omega
  scheduled := by
    intro task _ _ h_counted
    have h_mem : (scan, s.resets) ∈ t.enqueued := by
      rw [h_enqueued]
      exact List.mem_append_right _ List.mem_cons_self
    exact absurd h_resets.symm (h_counted _ h_mem)

theorem Timed.step (h : Timed k frequency s) (h_one : s.checked.length ≤ 1)
    (h_effect : Effect k s t) (h_frequency : FrequencyAtLeast k frequency t) :
    Timed k frequency t := by
  cases h_effect with
  | quiet h_clock h_checked h_task _ h_resets _ h_sent =>
    exact h.quiet h_clock h_checked h_task h_resets h_sent
  | handOver task max h_found h_active h_due _ h_settled h_same h_clock _ h_enqueued h_resets
      _ h_sent =>
    have h_scheduled := h.scheduled task h_found h_active h_settled.2
    refine ⟨?_, ?_, ?_, ?_⟩
    · rw [h_sent, h_clock]
      exact h.past
    · unfold Spaced
      rw [h_sent]
      exact h.spaced
    · rw [h_sent, h_clock]
      exact fun _ x h_mem => (h_scheduled x h_mem).1.trans h_due
    · rw [h_same, h_enqueued, h_resets, h_sent]
      exact h.scheduled
  | enqueue scan params _ h_clock h_checked h_enqueued h_resets _ h_sent =>
    exact h.enqueue h_one h_clock h_checked h_enqueued h_resets h_sent
  | count scan before after _ _ h_last h_next h_left h_clock h_checked _ _ _ h_sent =>
    refine h.schedule h_left (fun h_active => (h_next h_active).2) ?_ h_frequency h_clock h_checked
      h_sent
    intro last h_some
    rw [h_last] at h_some
    exact (Option.some.inj h_some).symm
  | reset task _ h_last h_next h_left h_clock h_checked _ _ _ h_sent =>
    refine h.schedule h_left (fun _ => h_next) ?_ h_frequency h_clock h_checked h_sent
    intro last h_some
    rw [h_last] at h_some
    cases h_some
  | configure task newFrequency newMaxCount h_found h_left h_clock h_checked h_enqueued h_resets
      _ h_sent =>
    have h_new := h_frequency _ h_left
    rw [updateReminderTask_frequency] at h_new
    refine ⟨?_, ?_, ?_, ?_⟩
    · rw [h_sent, h_clock]
      exact h.past
    · unfold Spaced
      rw [h_sent]
      exact h.spaced
    · rw [h_sent, h_clock, h_checked]
      exact h.handedOver
    · intro task' h_task h_active h_counted x h_mem
      rw [h_left] at h_task
      obtain rfl := Option.some.inj h_task
      rw [updateReminderTask_isActive] at h_active
      rw [h_enqueued, h_resets] at h_counted
      rw [h_sent] at h_mem
      obtain ⟨h_next, h_last⟩ := h.scheduled task h_found h_active h_counted x h_mem
      rw [updateReminderTask_lastReminderTime]
      exact ⟨le_updateReminderTask_next h_new (h.past x h_mem) h_next h_last, h_last⟩

end Spacing

/-! ### Runs -/

/-- **Reminders.** The cap and the spacing hold where no two steps overlap. -/
theorem reminders_capped (loads : String → Option Value) (k : AlertId) (db : Db) (clock : ℤ)
    (actions : List Action)
    (h_new : db.reminders.lookup k = none)
    (h_apart : Along (step loads k) (Apart loads k) (.start db clock) actions) :
    Always (step loads k) Capped (.start db clock) actions ∧
      ∀ frequency,
        Along (step loads k) (fun _ _ t => FrequencyAtLeast k frequency t) (.start db clock) actions →
          Always (step loads k) (Spaced frequency) (.start db clock) actions := by
  constructor
  · have h_counted : Always (step loads k) (Counted k) (.start db clock) actions :=
      h_apart.always (fun s a h h_here => h.step (step_effect a h_here)) (.start h_new)
    exact fun pre h_pre => (h_counted pre h_pre).toCapped
  · intro frequency h_frequency
    have h_both : Always (step loads k) (fun s => Counted k s ∧ Timed k frequency s) (.start db clock)
        actions := by
      refine Along.always (h_apart.and h_frequency) ?_ ⟨.start h_new, .start⟩
      rintro s a ⟨h_counted, h_timed⟩ ⟨h_here, h_at_least⟩
      have h_effect := step_effect a h_here
      exact ⟨h_counted.step h_effect, h_timed.step h_counted.one h_effect h_at_least⟩
    exact fun pre h_pre => (h_both pre h_pre).2.spaced

def onceAssignment : AlertAssignment where
  id := 3
  personnel := some [.str "amy"]
  notifyChannels := .list [.dict [("channel_type", .str "email"), ("id", .int 1)]]
  notificationFrequency :=
    .dict [("0", .dict [("interval_minutes", .int 10), ("max_count", .int 1)])]

def remindOnce : Db where
  alerts := (∅ : Table AlertId Alert).insert 1 { status := .pending, team := [.int 7] }
  assignments := (∅ : Table AssignmentId AlertAssignment).insert 3 onceAssignment
  escalations := ∅
  reminders := ∅
  users := []
  outbox := []

def scansInTurn : List Action :=
  [.activate { status := .pending } onceAssignment, .tick 600000000, .check 1, .enqueue 1,
    .advance 1, .tick 600000000, .check 2]

def scansOverlap : List Action :=
  [.activate { status := .pending } onceAssignment, .tick 600000000, .check 1, .check 2,
    .enqueue 1, .enqueue 2]

theorem reminders_capped_inTurn :
    Capped (run (step (fun _ => none) 1) (.start remindOnce 0) scansInTurn) ∧
      (run (step (fun _ => none) 1) (.start remindOnce 0) scansInTurn).sent.length = 1 := by
  refine ⟨(reminders_capped (fun _ => none) 1 remindOnce 0 scansInTurn rfl ?_).1.last, by decide⟩
  exact ⟨trivial, trivial, fun _ => ⟨rfl, by decide⟩, trivial, trivial, trivial,
    fun _ => ⟨rfl, by decide⟩, trivial⟩

/-- Two reminders at the same time where one is the maximum. -/
theorem reminders_overlap_not_capped :
    ¬Capped (run (step (fun _ => none) 1) (.start remindOnce 0) scansOverlap) ∧
      ¬Spaced 10 (run (step (fun _ => none) 1) (.start remindOnce 0) scansOverlap) := by
  constructor
  · intro h_capped
    have h_read : ∀ m, (1, m) ∈
        (run (step (fun _ => none) 1) (.start remindOnce 0) scansOverlap).maxima →
        0 < m ∧ m ≤ 1 := by
      have h_all : ∀ x ∈ (run (step (fun _ => none) 1) (.start remindOnce 0) scansOverlap).maxima,
          0 < x.2 ∧ x.2 ≤ 1 := by decide
      exact fun m h_mem => h_all _ h_mem
    have h_two := h_capped 1 1 (by decide) h_read
    exact absurd h_two (by decide)
  · intro h_spaced
    have h_times : ((run (step (fun _ => none) 1) (.start remindOnce 0) scansOverlap).sent.map
        Sent.time).Pairwise fun a b => a + minutes 10 ≤ b :=
      List.pairwise_map.mpr h_spaced
    exact absurd h_times (by decide)

end ReminderCap
end Alerts
