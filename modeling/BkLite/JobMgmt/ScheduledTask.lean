import BkLite.JobMgmt.Executions

/-!
# The concurrency policy of a scheduled task

`execute_scheduled_task` (`tasks.py`) counts the executions of its scheduled task that are pending
or running, and creates one later. A trigger is a task whose record is the table of those
executions; the executions go on by themselves, each as in `Executions`. So between the count and
the create other triggers, workers and cancel requests take their steps. The time and number of the
runs of a scheduled task are left out, as nothing here reads them.
-/

namespace JobMgmt.ScheduledTask

open Tasks Runs

inductive ConcurrencyPolicy
  | run
  | skip
  | queue
deriving DecidableEq, Repr

inductive Op
  | count
  | create (job : Job)
  | saveFailed (i : ℕ)

abbrev Table := List (Job × Execution)

/-- `execution.status = FAILED; execution.save(...)`. -/
def fail (x : Job × Execution) : Job × Execution :=
  (x.1, { x.2 with row := { x.2.row with status := .failed } })

def Op.apply (table : Table) : Op → Table
  | .count => table
  | .create job => table ++ [(job, .new)]
  | .saveFailed i => table.modify i fail

inductive Question
  | scheduledTask
  | check
  | dispatch
deriving DecidableEq, Repr

/-- The row with its job, the rules found, and whether the job was put into its queue. -/
structure Answer where
  scheduledTask : Option (Bool × Job)
  forbidden : List String
  dispatched : Bool

inductive Message
  | recheck
deriving DecidableEq, Repr

abbrev Trigger := Task Op Table Question Answer Message

/-- `status__in=[PENDING, RUNNING]`. -/
def runningCount (table : Table) : ℕ :=
  table.countP fun x => x.2.row.status ∈ [.pending, .running]

/-- From the check of the policy on: the execution is created and its job is dispatched. -/
def createExecution (job : Job) : Trigger :=
  let create : Trigger :=
    .access (.create job) fun table =>
      .ask .dispatch fun answer =>
        if answer.dispatched then .done
        else .access (.saveFailed table.length) fun _ => .done
  if job.targetList = [] then .done
  else if job.jobType = .playbook then create
  else .ask .check fun answer => if answer.forbidden ≠ [] then .done else create

def afterCount (policy : ConcurrencyPolicy) (job : Job) (table : Table) : Trigger :=
  if runningCount table > 0 then
    if policy = .skip then .done else .send .recheck .done
  else createExecution job

def executeScheduledTask (policy : ConcurrencyPolicy) : Trigger :=
  .ask .scheduledTask fun answer =>
    match answer.scheduledTask with
    | none => .done
    | some (enabled, job) =>
      if ¬enabled then .done
      else if policy = .skip ∨ policy = .queue then .access .count (afterCount policy job)
      else createExecution job

variable (policy : ConcurrencyPolicy)

def system : System Unit Op Table Question Answer Message where
  apply op table := op.apply table
  task _ := executeScheduledTask policy
  queued
    | .recheck => some ()

abbrev State := Pool Op Table Question Answer Message

inductive Event
  | trigger (e : Tasks.Event Unit Answer)
  | execution (j : ℕ) (e : ExecutionEvent)

def step (s : State) : Event → State
  | .trigger e => (system policy).step s e
  | .execution j e => { s with row := s.row.modify j fun x => (x.1, JobMgmt.step x.1 x.2 e) }

def State.new : State := ⟨[], [], []⟩

/-! ### The policy -/

def Unfinished (x : Job × Execution) : Prop := ¬x.2.row.status.Terminal

instance (x : Job × Execution) : Decidable (Unfinished x) := inferInstanceAs (Decidable (¬_))

def unfinishedCount (table : Table) : ℕ := table.countP fun x => Unfinished x

/-- A trigger that counts while an execution is unfinished goes on to queue one re-check, and is
done. -/
def Rechecks (s : State) (e : Event) (s' : State) : Prop :=
  ∀ i ans next, policy = .queue → e = .trigger (.step i ans) →
    s.tasks[i]? = some (.access .count next) → (∃ x ∈ s.row, Unfinished x) →
    s'.tasks[i]? = some (.send .recheck .done)

/-- One execution is unfinished at most, and what finds one is followed by a re-check. -/
structure Kept (as : List Event) : Prop where
  exclusive : Always (step policy) (fun s => unfinishedCount s.row ≤ 1) .new as
  rechecked : Along (step policy) (Rechecks policy) .new as

/-- The step creates an execution, or makes an ended one go on, only while none is unfinished. -/
def Exclusive (s : State) (e : Event) : Prop :=
  (∀ i ans job next, e = .trigger (.step i ans) →
    s.tasks[i]? = some (.access (.create job) next) → unfinishedCount s.row = 0) ∧
  ∀ j e' x, e = .execution j e' → s.row[j]? = some x → ¬Unfinished x →
    Unfinished (x.1, JobMgmt.step x.1 x.2 e') → unfinishedCount s.row = 0

/-- Where a trigger counts, the unfinished executions are not all `cancelling`. -/
def Counted (s : State) (e : Event) : Prop :=
  ∀ i ans next, policy = .queue → e = .trigger (.step i ans) →
    s.tasks[i]? = some (.access .count next) → (∃ x ∈ s.row, Unfinished x) →
    ∃ x ∈ s.row, x.2.row.status ∈ [Status.pending, .running]

/-! ### Counting -/

section Counting

variable {policy} {table : Table} {s : State} {e : Event} {x : Job × Execution} {j : ℕ}

theorem countP_modify {α : Type} {p : α → Bool} {f : α → α} {xs : List α} {x : α} {j : ℕ}
    (h : xs[j]? = some x) :
    (xs.modify j f).countP p + (if p x then 1 else 0) =
      xs.countP p + (if p (f x) then 1 else 0) := by
  induction xs generalizing j with
  | nil => exact absurd h nofun
  | cons y xs ih =>
    cases j with
    | zero =>
      obtain rfl : y = x := Option.some.inj h
      rw [List.modify_zero_cons, List.countP_cons, List.countP_cons]
      omega
    | succ j =>
      have h_ih := ih h
      rw [List.modify_succ_cons, List.countP_cons, List.countP_cons]
      omega

theorem modify_of_none {α : Type} {f : α → α} {xs : List α} {j : ℕ} (h : xs[j]? = none) :
    xs.modify j f = xs :=
  List.modify_eq_self (List.getElem?_eq_none_iff.mp h)

theorem unfinishedCount_modify {f : Job × Execution → Job × Execution} (h : table[j]? = some x)
    (h_count : unfinishedCount table ≤ 1) :
    unfinishedCount (table.modify j f) ≤ 1 ↔
      (¬Unfinished x → Unfinished (f x) → unfinishedCount table = 0) := by
  have h_modify := countP_modify (p := fun x => decide (Unfinished x)) (f := f) h
  rw [unfinishedCount, unfinishedCount] at *
  by_cases h_x : Unfinished x
  · have h_pos : 0 < table.countP fun x => decide (Unfinished x) :=
      List.countP_pos_iff.mpr ⟨x, List.mem_of_getElem? h, decide_eq_true h_x⟩
    rw [if_pos (decide_eq_true h_x)] at h_modify
    refine iff_of_true ?_ fun h_not => absurd h_x h_not
    split_ifs at h_modify <;> omega
  · rw [if_neg (by rwa [decide_eq_true_iff])] at h_modify
    by_cases h_fx : Unfinished (f x)
    · rw [if_pos (decide_eq_true h_fx)] at h_modify
      constructor
      · intro h_le _ _
        omega
      · intro h_zero
        have := h_zero h_x h_fx
        omega
    · rw [if_neg (by rwa [decide_eq_true_iff])] at h_modify
      exact iff_of_true (by omega) fun _ h => absurd h h_fx

theorem not_unfinished_fail : ¬Unfinished (fail x) := by
  show ¬¬Status.Terminal .failed
  decide

end Counting

/-! ### Steps -/

section Steps

variable {policy} {s : State} {e : Event}

theorem unfinishedCount_create {table : Table} {job : Job} :
    unfinishedCount (table ++ [(job, .new)]) = unfinishedCount table + 1 := by
  rw [unfinishedCount, List.countP_append]
  rfl

theorem unfinishedCount_apply {op : Op} {table : Table} (h : unfinishedCount table ≤ 1) :
    unfinishedCount (op.apply table) ≤ 1 ↔ ∀ job, op = .create job → unfinishedCount table = 0 := by
  cases op with
  | count => exact iff_of_true h nofun
  | create job =>
    rw [Op.apply, unfinishedCount_create]
    constructor
    · intro h_le _ _
      omega
    · intro h_zero
      rw [h_zero job rfl]
  | saveFailed i =>
    refine iff_of_true ?_ nofun
    show unfinishedCount (table.modify i fail) ≤ 1
    cases h_i : table[i]? with
    | none => rwa [modify_of_none h_i]
    | some x =>
      exact (unfinishedCount_modify h_i h).mpr fun _ h_fail => absurd h_fail not_unfinished_fail

theorem exclusive_trigger {e : Tasks.Event Unit Answer} (h : unfinishedCount s.row ≤ 1) :
    unfinishedCount ((system policy).step s e).row ≤ 1 ↔ Exclusive s (.trigger e) := by
  have h_other : ∀ j e' x, Event.trigger e = .execution j e' → s.row[j]? = some x →
      ¬Unfinished x → Unfinished (x.1, JobMgmt.step x.1 x.2 e') → unfinishedCount s.row = 0 :=
    fun _ _ _ h_e => absurd h_e nofun
  rw [Exclusive, and_iff_left h_other]
  cases e with
  | start request =>
    exact iff_of_true h fun _ _ _ _ h_e => absurd (Event.trigger.inj h_e) nofun
  | step i ans =>
    by_cases h_access : ∃ op next, s.tasks[i]? = some (.access op next)
    · obtain ⟨op, next, h_i⟩ := h_access
      rw [Pool.step_access h_i]
      refine (unfinishedCount_apply h).trans ⟨?_, ?_⟩
      · rintro h_zero i' ans' job next' h_e h_i'
        obtain ⟨rfl, rfl⟩ := Event.step.inj (Event.trigger.inj h_e)
        obtain ⟨rfl, rfl⟩ := Task.access.inj (Option.some.inj (h_i.symm.trans h_i'))
        exact h_zero job rfl
      · rintro h_all job rfl
        exact h_all i ans job next rfl h_i
    · refine iff_of_true ?_ ?_
      · obtain h_same | ⟨i', ans', op, next, h_e, h_i, -⟩ :=
          Pool.row_step_eq (S := system policy) (s := s) (e := .step i ans)
        · rwa [h_same]
        · obtain ⟨rfl, rfl⟩ := Event.step.inj h_e
          exact absurd ⟨op, next, h_i⟩ h_access
      · rintro i' ans' job next h_e h_i
        obtain ⟨rfl, rfl⟩ := Event.step.inj (Event.trigger.inj h_e)
        exact absurd ⟨_, next, h_i⟩ h_access

theorem exclusive_execution {j : ℕ} {e : ExecutionEvent} (h : unfinishedCount s.row ≤ 1) :
    unfinishedCount (step policy s (.execution j e)).row ≤ 1 ↔ Exclusive s (.execution j e) := by
  have h_other : ∀ i ans job next, Event.execution j e = .trigger (.step i ans) →
      s.tasks[i]? = some (.access (.create job) next) → unfinishedCount s.row = 0 :=
    fun _ _ _ _ h_e => absurd h_e nofun
  rw [Exclusive, and_iff_right h_other, step]
  cases h_j : s.row[j]? with
  | none =>
    rw [modify_of_none h_j]
    refine iff_of_true h ?_
    rintro j' e' x h_e h_x
    obtain ⟨rfl, rfl⟩ := Event.execution.inj h_e
    exact absurd (h_j.symm.trans h_x) nofun
  | some x =>
    refine (unfinishedCount_modify h_j h).trans ⟨?_, fun h_all => h_all j e x rfl h_j⟩
    rintro h_zero j' e' x' h_e h_x'
    obtain ⟨rfl, rfl⟩ := Event.execution.inj h_e
    obtain rfl : x = x' := Option.some.inj (h_j.symm.trans h_x')
    exact h_zero

theorem exclusive_step (h : unfinishedCount s.row ≤ 1) :
    unfinishedCount (step policy s e).row ≤ 1 ↔ Exclusive s e := by
  cases e with
  | trigger e => exact exclusive_trigger h
  | execution j e => exact exclusive_execution h

/-! ### Re-checks -/

def Counts (policy : ConcurrencyPolicy) (op : Op) (next : Table → Trigger) : Prop :=
  op = .count → ∃ job, next = afterCount policy job

theorem counts_createExecution {job : Job} : (createExecution job).All (Counts policy) := by
  have h_create : Task.All (Counts policy) (.access (.create job) fun table =>
      .ask .dispatch fun answer =>
        if answer.dispatched then .done
        else .access (.saveFailed table.length) fun _ => .done) := by
    refine ⟨nofun, fun table answer => ?_⟩
    dsimp only
    split_ifs
    · trivial
    · exact ⟨nofun, fun _ => trivial⟩
  rw [createExecution]
  split_ifs
  · trivial
  · exact h_create
  · intro answer
    dsimp only
    split_ifs
    · trivial
    · exact h_create

theorem counts_executeScheduledTask : (executeScheduledTask policy).All (Counts policy) := by
  intro answer
  dsimp only
  cases answer.scheduledTask with
  | none => trivial
  | some row =>
    obtain ⟨enabled, job⟩ := row
    dsimp only
    split_ifs
    · refine ⟨fun _ => ⟨job, rfl⟩, fun table => ?_⟩
      rw [afterCount]
      split_ifs
      · trivial
      · trivial
      · exact counts_createExecution
    · exact counts_createExecution
    · trivial

def Proper (policy : ConcurrencyPolicy) (s : State) : Prop :=
  ∀ t ∈ s.tasks, t.All (Counts policy)

theorem proper_step (h : Proper policy s) : Proper policy (step policy s e) := by
  cases e with
  | trigger e => exact all_step (fun _ => counts_executeScheduledTask) h e
  | execution j e => exact h

theorem createExecution_ne_send {job : Job} : createExecution job ≠ .send .recheck .done := by
  rw [createExecution]
  split_ifs <;> nofun

theorem rechecks_iff (h : Proper policy s) :
    Rechecks policy s e (step policy s e) ↔ Counted policy s e := by
  refine forall_congr' fun i => forall_congr' fun ans => forall_congr' fun next => ?_
  refine imp_congr_right fun h_policy => imp_congr_right fun h_e => imp_congr_right fun h_i =>
    imp_congr_right fun _ => ?_
  subst h_e
  have h_lt := (List.getElem?_eq_some_iff.mp h_i).1
  obtain ⟨job, rfl⟩ := (h _ (List.mem_of_getElem? h_i)).1 rfl
  -- what is left of the trigger is what follows its count
  have h_next : (step policy s (.trigger (.step i ans))).tasks[i]? =
      some (afterCount policy job s.row) := by
    rw [step, Pool.step_access h_i]
    exact List.getElem?_set_self h_lt
  rw [h_next, Option.some.injEq, afterCount]
  have h_running : runningCount s.row > 0 ↔
      ∃ x ∈ s.row, x.2.row.status ∈ [Status.pending, .running] := by
    rw [runningCount, gt_iff_lt, List.countP_pos_iff]
    simp only [decide_eq_true_iff]
  rw [← h_running, h_policy]
  by_cases h_count : runningCount s.row > 0
  · rw [if_pos h_count, if_neg (by decide)]
    exact iff_of_true rfl h_count
  · rw [if_neg h_count]
    exact iff_of_false createExecution_ne_send h_count

end Steps

/-! ### Runs -/

section Examples

private def hostJob : Job :=
  ⟨.script, .manual, [⟨"", some "1", "host", "10.0.0.1"⟩], 1, [], .web, "", "", 10, id⟩

private def go : Answer := ⟨some (true, hostJob), [], true⟩

private def yes : JobMgmt.Answer := ⟨[], true, none, [], .success, ""⟩

private def triggerRun (i : ℕ) : List Event :=
  .trigger (.start ()) :: List.replicate 4 (.trigger (.step i go))

/-- A trigger creates an execution, its worker saves `running`, it is cancelled, and the next
trigger comes. -/
private def cancellingRun : List Event :=
  triggerRun 0 ++ ([.start .worker, .step 0 yes, .step 0 yes, .start .cancel, .step 1 yes,
    .step 1 yes].map (.execution 0)) ++ triggerRun 1

end Examples

end JobMgmt.ScheduledTask
