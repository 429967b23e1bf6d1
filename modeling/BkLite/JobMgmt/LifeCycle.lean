import BkLite.JobMgmt.Executions

/-!
# The life cycle of an execution

A cancel request and its fallback change the status only where it still is what they expect
(`compareAndSet`). The worker task and the callback of the Ansible executor look at the status, and
save another one later with no further look. So a status is kept exactly where each of these saves
comes in time (`statusLifeCycle_iff`).
-/

namespace JobMgmt

open Tasks Runs

/-! ### The life cycle -/

def Status.moves : Status → List Status
  | .pending => [.running, .failed, .cancelled]
  | .running => [.success, .failed, .cancelling]
  | .cancelling => [.cancelled]
  | _ => []

def Status.MovesTo (status status' : Status) : Prop := status' = status ∨ status' ∈ status.moves

instance (status status' : Status) : Decidable (status.MovesTo status') :=
  inferInstanceAs (Decidable (_ ∨ _))

theorem Status.MovesTo.refl (status : Status) : status.MovesTo status := .inl rfl

theorem Status.MovesTo.of_terminal {status status' : Status} (h : status.MovesTo status')
    (h_terminal : status.Terminal) : status' = status := by
  obtain h_eq | h_mem := h
  · exact h_eq
  · revert h_terminal h_mem
    cases status <;> cases status' <;> decide

theorem Status.MovesTo.cancels {status status' : Status} (h : status.MovesTo status')
    (h_cancels : status.Cancels) : status'.Cancels := by
  revert h h_cancels
  cases status <;> cases status' <;> decide

theorem Status.Terminal.cancelled {status : Status} (h : status.Terminal)
    (h_cancels : status.Cancels) : status = .cancelled := by
  revert h h_cancels
  cases status <;> decide

/-- The executor of a target is called, or the Ansible executor gets the job. -/
def Question.Remote : Question → Prop
  | .execute _ => True
  | .distribute _ _ => True
  | .submit => True
  | _ => False

def Executes (task : Option Work) : Prop :=
  ∃ q next, task = some (.ask q next) ∧ q.Remote

def Execution.Settled (s : Execution) : Prop := ∀ t ∈ s.tasks, t = .done

/-- The status moves only as it may, and an accepted cancellation ends in `cancelled`. -/
structure LifeCycle (job : Job) (as : List ExecutionEvent) : Prop where
  moves : Along (step job) (fun s _ t => s.row.status.MovesTo t.row.status) .new as
  terminal : ∀ pre post, as = pre ++ post → (run (step job) .new pre).row.status.Terminal →
    (run (step job) .new as).row.status = (run (step job) .new pre).row.status
  once : ∀ pre mid post, as = pre ++ .start .worker :: mid ++ post →
    (run (step job) .new pre).row.status.Terminal →
    ¬Executes (run (step job) .new (pre ++ .start .worker :: mid)).tasks[
      (run (step job) .new pre).tasks.length]?
  cancelled : ∀ pre post, as = pre ++ post → (run (step job) .new pre).row.status.Cancels →
    ((run (step job) .new as).row.status.Terminal ∨ (run (step job) .new as).Settled) →
    (run (step job) .new as).row.status = .cancelled

/-! ### Saves in time -/

def Op.saves : Op → Option Status
  | .saveStatus status => some status
  | .saveAll status _ _ _ => some status
  | _ => none

/-- A save comes in time: nothing has ended or cancelled the execution before. -/
def Op.Timely (op : Op) (status : Status) : Prop :=
  (op.saves = some .running → status ∈ [.pending, .running]) ∧
    (op.saves = some .success → status ∈ [.running, .success]) ∧
    (op.saves = some .failed → status ∈ [.pending, .running, .failed])

instance (op : Op) (status : Status) : Decidable (op.Timely status) :=
  inferInstanceAs (Decidable (_ ∧ _ ∧ _))

def Timely (s : Execution) (e : ExecutionEvent) : Prop :=
  ∀ i ans op next, e = .step i ans → s.tasks[i]? = some (.access op next) →
    op.Timely s.row.status

/-! ### The accesses of the tasks -/

/-- The accesses that there are. One that makes the status `cancelling` goes on to queue the
fallback. -/
def Proper (op : Op) (next : Row → Work) : Prop :=
  match op with
  | .saveStatus status => status ∈ [.running, .success, .failed, .cancelled]
  | .saveAll status _ _ _ => status ∈ [.success, .failed, .cancelled]
  | .compareAndSet expected status =>
    (expected = .running ∧ status = .cancelling ∧ ∀ row : Row, row.status = .running →
      ∃ rest, next row = .send .finalizeCancelling rest) ∨
    expected ∈ [.pending, .cancelling] ∧ status = .cancelled
  | _ => True

/-- `cancelled` is not saved before the task has seen a cancellation. -/
def Unseen (op : Op) (next : Row → Work) : Prop := Proper op next ∧ op.saves ≠ some .cancelled

/-- The task saves `cancelled` only after it has got a row with an accepted cancellation. -/
abbrev Careful (t : Work) : Prop := t.Until (fun row => row.status.Cancels) Unseen Proper

variable {job : Job}

theorem Careful.all {t : Work} (h : Careful t) : t.All Proper := Task.Until.all h fun _ _ h => h.1

theorem careful_access {op : Op} {next : Row → Work} (h_op : Unseen op next)
    (h : ∀ row, Careful (next row)) : Careful (.access op next) :=
  ⟨h_op, fun row => ⟨fun _ => (h row).all, fun _ => h row⟩⟩

theorem careful_sendNats {row : Row} : Careful (sendNatsCallback job row) := by
  rw [sendNatsCallback]
  split_ifs
  · trivial
  · trivial

theorem careful_sendCallback {row : Row} : Careful (sendCallback job row) := by
  have h_nats : Careful (if job.callbackType = .web then .done else sendNatsCallback job row) := by
    split_ifs
    · trivial
    · exact careful_sendNats
  rw [sendCallback]
  by_cases h_web : job.callbackType = .nats ∨ job.callbackUrl = ""
  · rw [if_pos h_web]
    exact h_nats
  · rw [if_neg h_web]
    exact h_nats

theorem proper_saveStatus {status : Status} {next : Row → Work}
    (h : status ∈ [.running, .success, .failed, .cancelled]) :
    Proper (.saveStatus status) next := h

theorem careful_saveStatus {status : Status} {next : Work}
    (h : status ∈ [.running, .success, .failed]) (h_next : Careful next) :
    Careful (.access (.saveStatus status) fun _ => next) := by
  refine careful_access ⟨?_, ?_⟩ fun _ => h_next
  · exact List.mem_append_left [.cancelled] h
  · intro h_eq
    obtain rfl : status = .cancelled := Option.some.inj h_eq
    revert h
    decide

theorem careful_saveResults {results : List Result} {next : Work} (h_next : Careful next) :
    Careful (.access (.saveResults results) fun _ => next) :=
  careful_access ⟨trivial, nofun⟩ fun _ => h_next

theorem careful_failTargets {errorMessage : String} : Careful (failTargets job errorMessage) :=
  careful_saveStatus (by decide) (careful_saveResults trivial)

theorem careful_prepareExecution {next : Work} (h : Careful next) :
    Careful (prepareExecution job next) := by
  refine careful_access ⟨trivial, nofun⟩ fun execution => ?_
  split_ifs
  · trivial
  · exact careful_saveStatus (by decide) (careful_saveStatus (by decide) trivial)
  · exact careful_saveStatus (by decide) h

theorem careful_finalizeExecution {results : List Result} :
    Careful (finalizeExecution job results) := by
  refine careful_saveResults ⟨⟨trivial, nofun⟩, fun execution => ?_⟩
  constructor
  · -- a cancellation has been seen
    intro h_cancels
    dsimp only at h_cancels ⊢
    rw [if_pos h_cancels]
    exact ⟨trivial, fun _ => ⟨proper_saveStatus (by decide), fun _ => ⟨trivial, fun _ => careful_sendCallback.all⟩⟩⟩
  · intro h_cancels
    dsimp only at h_cancels ⊢
    rw [if_neg h_cancels]
    refine careful_access ⟨trivial, nofun⟩ fun locked => ?_
    refine careful_saveStatus ?_ (careful_access ⟨trivial, nofun⟩
      fun _ => careful_sendCallback)
    split_ifs
    · decide
    · decide

theorem careful_runBatch {work : Target → (Result → Work) → Work}
    (h_work : ∀ t next, (∀ result, Careful (next result)) → Careful (work t next))
    {targets : List Target} {results : List Result} {next : List Result → Work}
    (h : ∀ results, Careful (next results)) : Careful (runBatch work targets results next) := by
  induction targets generalizing results with
  | nil => exact h results
  | cons t ts ih => exact h_work t _ fun result => ih

theorem careful_runBatches {work : Target → (Result → Work) → Work}
    (h_work : ∀ t next, (∀ result, Careful (next result)) → Careful (work t next))
    {batches : List (List Target)} {results : List Result} :
    Careful (runBatches job work batches results) := by
  induction batches generalizing results with
  | nil => exact careful_finalizeExecution
  | cons batch batches ih =>
    intro looking
    refine careful_runBatch h_work fun ended completed => ?_
    refine careful_access ⟨trivial, nofun⟩ fun execution => ?_
    dsimp only
    split_ifs
    · exact careful_finalizeExecution
    · exact ih

theorem careful_executeScriptOnTarget {t : Target} {next : Result → Work}
    (h : ∀ result, Careful (next result)) : Careful (executeScriptOnTarget t next) := by
  refine careful_access ⟨trivial, nofun⟩ fun execution => ?_
  split_ifs
  · exact h _
  · exact fun answer => h _

theorem careful_distributeFiles {t : Target} {next : Result → Work} {files errors : List String}
    (h : ∀ result, Careful (next result)) : Careful (distributeFiles job t next files errors) := by
  induction files generalizing errors with
  | nil => exact h _
  | cons file files ih =>
    refine careful_access ⟨trivial, nofun⟩ fun execution => ?_
    split_ifs
    · exact h _
    · exact fun answer => ih

theorem careful_distributeFileToTarget {t : Target} {next : Result → Work}
    (h : ∀ result, Careful (next result)) : Careful (distributeFileToTarget job t next) := by
  refine careful_access ⟨trivial, nofun⟩ fun execution => ?_
  split_ifs
  · exact h _
  · exact careful_distributeFiles h

theorem careful_shouldUseAnsible {next : Bool → Work} (h : ∀ ansible, Careful (next ansible)) :
    Careful (shouldUseAnsible job next) := by
  rw [shouldUseAnsible]
  split_ifs
  · exact fun answer => h _
  · exact h _

theorem careful_submit {errorMessage : String → String} {answer : Answer} {next : Work}
    (h : Careful next) : Careful (match answer.error with
      | some e => failTargets job (errorMessage e)
      | none => next) := by
  cases answer.error with
  | none => exact h
  | some e => exact careful_failTargets

theorem careful_runViaAnsibleOrSidecar : Careful (runViaAnsibleOrSidecar job) := by
  refine careful_shouldUseAnsible fun ansible => ?_
  split_ifs
  · exact fun answer => careful_submit trivial
  · exact careful_runBatches fun t next => careful_executeScriptOnTarget

theorem careful_runScript : Careful (runScript job) := by
  refine careful_prepareExecution fun check => ?_
  dsimp only
  split_ifs
  · exact careful_failTargets
  · intro windows
    dsimp only
    split_ifs
    · refine careful_shouldUseAnsible fun ansible => ?_
      split_ifs
      · exact careful_runViaAnsibleOrSidecar
      · exact careful_failTargets
    · exact careful_runViaAnsibleOrSidecar
  · exact careful_runViaAnsibleOrSidecar

theorem careful_runPlaybookViaAnsible : Careful (runPlaybookViaAnsible job) := by
  refine careful_access ⟨trivial, nofun⟩ fun execution => ?_
  split_ifs
  · exact careful_access ⟨trivial, nofun⟩ fun _ => trivial
  · intro prepared
    refine careful_submit (careful_access ⟨trivial, nofun⟩ fun execution => ?_)
    split_ifs
    · exact careful_failTargets
    · exact fun answer => careful_submit trivial

theorem careful_runPlaybook : Careful (runPlaybook job) := by
  refine careful_prepareExecution fun playbook => ?_
  dsimp only
  split_ifs
  · refine careful_shouldUseAnsible fun ansible => ?_
    split_ifs
    · exact careful_runPlaybookViaAnsible
    · exact careful_saveResults (careful_saveStatus (by decide) trivial)
  · exact careful_saveStatus (by decide) trivial

theorem careful_runFileDistribution : Careful (runFileDistribution job) := by
  refine careful_prepareExecution fun check => ?_
  dsimp only
  split_ifs
  · exact careful_failTargets
  · exact careful_saveStatus (by decide) trivial
  · exact careful_runBatches fun t next => careful_distributeFileToTarget

theorem careful_runJob : Careful (runJob job) := by
  rw [runJob]
  cases job.jobType with
  | script => exact careful_runScript
  | fileDistribution => exact careful_runFileDistribution
  | playbook => exact careful_runPlaybook

theorem careful_cancel : Careful cancel := by
  refine careful_access ⟨trivial, nofun⟩ fun execution => ?_
  cases execution.status with
  | pending => exact careful_access ⟨.inr ⟨by decide, rfl⟩, nofun⟩ fun _ => trivial
  | running =>
    refine careful_access ⟨.inl ⟨rfl, rfl, fun row h_row => ⟨.done, if_pos h_row⟩⟩, nofun⟩
      fun row => ?_
    split_ifs
    · trivial
    · trivial
  | _ => trivial

theorem careful_jobTaskTerminate : Careful (jobTaskTerminate job) := by
  refine careful_access ⟨trivial, nofun⟩ fun execution => ?_
  have h_send : Careful (.access .get (sendCallback job)) :=
    careful_access ⟨trivial, nofun⟩ fun _ => careful_sendCallback
  cases execution.status with
  | pending =>
    refine careful_access ⟨.inr ⟨by decide, rfl⟩, nofun⟩ fun row => ?_
    split_ifs
    · exact h_send
    · trivial
  | running =>
    refine careful_access ⟨.inl ⟨rfl, rfl, fun row h_row => ⟨_, if_pos h_row⟩⟩, nofun⟩ fun row => ?_
    split_ifs
    · exact h_send
    · trivial
  | _ => trivial

theorem careful_finalizeCancelling : Careful (finalizeCancelling job) := by
  refine careful_access ⟨.inr ⟨by decide, rfl⟩, nofun⟩ fun row => ?_
  split_ifs
  · refine careful_access ⟨trivial, nofun⟩ fun execution => ?_
    exact careful_access ⟨trivial, nofun⟩ fun _ => careful_sendCallback
  · trivial

theorem careful_failExecution {errorMessage : String} :
    Careful (failExecution job errorMessage) :=
  careful_access ⟨List.mem_cons_of_mem _ List.mem_cons_self, nofun⟩ fun _ => careful_sendCallback

theorem careful_ansibleTaskCallback {data : CallbackData} :
    Careful (ansibleTaskCallback job data) := by
  refine ⟨⟨trivial, nofun⟩, fun execution => ?_⟩
  -- only a callback that has seen `cancelling` saves `cancelled`
  have h_save : ∀ {results : List Result} {failed : ℕ} {next : Work}, Careful next →
      (execution.status.Cancels → Task.All Proper (.access (.saveAll
        (if execution.status = .cancelling then .cancelled
          else if results.any (·.status = .failed) then .failed else .success)
        results (successCount results) failed) fun _ => next)) ∧
      (¬execution.status.Cancels → Careful (.access (.saveAll
        (if execution.status = .cancelling then .cancelled
          else if results.any (·.status = .failed) then .failed else .success)
        results (successCount results) failed) fun _ => next)) := by
    intro results failed next h_next
    refine ⟨fun _ => ⟨?_, fun _ => h_next.all⟩, fun h_cancels => careful_access ⟨?_, ?_⟩
      fun _ => h_next⟩
    · show _ ∈ _
      split_ifs <;> decide
    · show _ ∈ _
      split_ifs <;> decide
    · rw [if_neg fun h_eq => h_cancels (by rw [h_eq]; decide)]
      show some _ ≠ some _
      split_ifs <;> decide
  dsimp only
  by_cases h_terminal : execution.status.Terminal
  · rw [if_pos h_terminal]
    exact ⟨fun _ => trivial, fun _ => trivial⟩
  rw [if_neg h_terminal]
  cases data.result with
  | none => exact ⟨fun _ => careful_failExecution.all, fun _ => careful_failExecution⟩
  | some hosts =>
    dsimp only
    cases matchHosts job.targetList hosts [] with
    | error errorMessage =>
      exact ⟨fun _ => careful_failExecution.all, fun _ => careful_failExecution⟩
    | ok results => exact h_save careful_sendCallback

theorem careful_task (request : Request) : Careful ((system job).task request) := by
  cases request with
  | worker => exact careful_runJob
  | cancel => exact careful_cancel
  | terminate => exact careful_jobTaskTerminate
  | callback data => exact careful_ansibleTaskCallback
  | finalizeCancelling => exact careful_finalizeCancelling

/-! ### Invariants -/

/-- A task that makes a `cancelling` status `cancelled`, or queues one that does. -/
def Converges (job : Job) (t : Work) : Prop :=
  t = finalizeCancelling job ∨ ∃ rest, t = .send .finalizeCancelling rest

/-- No save of `cancelled` waits before a cancellation has been accepted. -/
structure Inv (job : Job) (s : Execution) : Prop where
  proper : ∀ t ∈ s.tasks, t.All Proper
  careful : ¬s.row.status.Cancels → ∀ t ∈ s.tasks, Careful t
  converges : s.row.status = .cancelling → ∃ t ∈ s.tasks, Converges job t

theorem inv_new : Inv job .new :=
  ⟨fun _ h => absurd h List.not_mem_nil, fun _ _ h => absurd h List.not_mem_nil, nofun⟩

variable {s : Execution} {e : ExecutionEvent}

theorem status_apply_save {op : Op} (row : Row) {status : Status} (h : op.saves = some status) :
    (op.apply row).status = status := by
  cases op with
  | saveStatus st => exact Option.some.inj h
  | saveAll st results success failed => exact Option.some.inj h
  | _ => exact absurd h nofun

theorem cancelling_apply {op : Op} {next : Row → Work} {row : Row} (h : Proper op next)
    (h_row : row.status ≠ .cancelling) (h_apply : (op.apply row).status = .cancelling) :
    ∃ rest, next row = .send .finalizeCancelling rest := by
  cases op with
  | saveStatus status =>
    obtain rfl : status = .cancelling := h_apply
    exact absurd h (by show ¬_ ∈ _; decide)
  | saveAll status results success failed =>
    obtain rfl : status = .cancelling := h_apply
    exact absurd h (by show ¬_ ∈ _; decide)
  | compareAndSet expected status =>
    rw [Op.apply] at h_apply
    split_ifs at h_apply with h_hit
    · obtain ⟨rfl, -, h_next⟩ | ⟨-, rfl⟩ := h
      · exact h_next row h_hit
      · exact absurd h_apply Status.noConfusion
    · exact absurd h_apply h_row
  | _ => exact absurd h_apply h_row

theorem converges_step (h : Inv job s) (h_status : (step job s e).row.status = .cancelling) :
    ∃ t ∈ (step job s e).tasks, Converges job t := by
  by_cases h_row : s.row.status = .cancelling
  · obtain ⟨t, h_t, h_converges⟩ := h.converges h_row
    obtain h_mem | ⟨i, ans, rfl, h_i⟩ := Pool.mem_step_of_mem (S := system job) (e := e) h_t
    · exact ⟨t, h_mem, h_converges⟩
    -- the step is one of that task
    obtain rfl | ⟨rest, rfl⟩ := h_converges
    · rw [step, Pool.step_access h_i] at h_status
      have h_cancelled : (system job).apply (.compareAndSet .cancelling .cancelled) s.row =
          { s.row with status := .cancelled } := if_pos h_row
      rw [h_cancelled] at h_status
      exact absurd h_status Status.noConfusion
    · refine ⟨finalizeCancelling job, ?_, .inl rfl⟩
      rw [step, Pool.step_send h_i]
      exact List.mem_append_right _ List.mem_cons_self
  · obtain h_eq | ⟨i, ans, op, next, rfl, h_i, h_eq⟩ :=
      Pool.row_step_eq (S := system job) (s := s) (e := e)
    · exact absurd (h_eq ▸ h_status) h_row
    · have h_proper : Proper op next := (h.proper _ (List.mem_of_getElem? h_i)).1
      have h_apply : (op.apply s.row).status = .cancelling := (congrArg Row.status h_eq).symm.trans
        h_status
      obtain ⟨rest, h_next⟩ := cancelling_apply h_proper h_row h_apply
      exact ⟨_, Pool.next_mem_step h_i, .inr ⟨rest, h_next⟩⟩

theorem inv_step (h : Inv job s)
    (h_moves : s.row.status.MovesTo (step job s e).row.status) : Inv job (step job s e) where
  proper := all_step (fun request => (careful_task request).all) h.proper e
  careful h_status := by
    have h_row : ¬s.row.status.Cancels := fun h_cancels => h_status (h_moves.cancels h_cancels)
    exact until_step careful_task h_row (h.careful h_row) e
  converges := converges_step h

/-! ### Timely saves -/

theorem movesTo_save {status st : Status} (h_st : st ∈ [.running, .success, .failed, .cancelled])
    (h_timely : (Op.saveStatus st).Timely status) (h_cancelled : st = .cancelled → status.Cancels) :
    status.MovesTo st := by
  revert h_st h_timely h_cancelled
  cases st <;> cases status <;> decide

theorem movesTo_of_timely (h : Inv job s) (h_timely : Timely s e) :
    s.row.status.MovesTo (step job s e).row.status := by
  obtain h_eq | ⟨i, ans, op, next, rfl, h_i, h_eq⟩ :=
    Pool.row_step_eq (S := system job) (s := s) (e := e)
  · rw [step, h_eq]
    exact .refl _
  rw [step, h_eq]
  have h_task := List.mem_of_getElem? h_i
  have h_proper : Proper op next := (h.proper _ h_task).1
  have h_op := h_timely i ans op next rfl h_i
  -- a task that saves `cancelled` has seen a cancellation, which is still there
  have h_cancelled : op.saves = some .cancelled → s.row.status.Cancels := by
    intro h_saves
    by_contra h_cancels
    exact (h.careful h_cancels _ h_task).1.2 h_saves
  cases op with
  | saveStatus status =>
    exact movesTo_save h_proper h_op fun h_eq => h_cancelled (congrArg some h_eq)
  | saveAll status results success failed =>
    exact movesTo_save (List.mem_cons_of_mem _ h_proper) h_op
      fun h_eq => h_cancelled (congrArg some h_eq)
  | compareAndSet expected status =>
    show s.row.status.MovesTo (if s.row.status = expected then _ else s.row).status
    split_ifs with h_hit
    · obtain ⟨rfl, rfl, -⟩ | ⟨h_expected, rfl⟩ := h_proper
      · show s.row.status.MovesTo .cancelling
        rw [h_hit]
        decide
      · show s.row.status.MovesTo .cancelled
        rw [h_hit]
        revert h_expected
        cases expected <;> decide
    · exact .refl _
  | _ => exact .refl _

theorem timely_of_movesTo (h : s.row.status.MovesTo (step job s e).row.status) : Timely s e := by
  rintro i ans op next rfl h_i
  rw [step, Pool.step_access h_i] at h
  have h_saves : ∀ st, op.saves = some st → s.row.status.MovesTo st := fun st h_st =>
    (status_apply_save s.row h_st) ▸ h
  refine ⟨fun h_st => ?_, fun h_st => ?_, fun h_st => ?_⟩
  all_goals
    have h_to := h_saves _ h_st
    revert h_to
    cases s.row.status <;> decide

/-! ### Runs -/

/-- A worker task on an ended execution: it has not looked yet, is about to save `running`, or is
done. -/
structure Late (job : Job) (i : ℕ) (s : Execution) : Prop where
  terminal : s.row.status.Terminal
  task : ∃ t, s.tasks[i]? = some t ∧ ((∃ next, t = prepareExecution job next) ∨ t = .done ∨
    ∃ next, t = .access (.saveStatus .running) next)

theorem runJob_eq : ∃ next, runJob job = prepareExecution job next := by
  rw [runJob]
  cases job.jobType with
  | script => exact ⟨_, rfl⟩
  | fileDistribution => exact ⟨_, rfl⟩
  | playbook => exact ⟨_, rfl⟩

theorem Late.not_executes {i : ℕ} (h : Late job i s) : ¬Executes s.tasks[i]? := by
  rintro ⟨q, next, h_ask, -⟩
  obtain ⟨t, h_t, h_kind⟩ := h.task
  obtain rfl : t = .ask q next := Option.some.inj (h_t.symm.trans h_ask)
  obtain ⟨next', h_eq⟩ | h_eq | ⟨next', h_eq⟩ := h_kind
  · exact absurd h_eq nofun
  · exact absurd h_eq nofun
  · exact absurd h_eq nofun

theorem late_step {i : ℕ} (h : Late job i s)
    (h_moves : s.row.status.MovesTo (step job s e).row.status) : Late job i (step job s e) := by
  obtain ⟨h_terminal, t, h_t, h_kind⟩ := h
  have h_same := h_moves.of_terminal h_terminal
  refine ⟨h_same ▸ h_terminal, ?_⟩
  have h_lt := (List.getElem?_eq_some_iff.mp h_t).1
  obtain h_other | ⟨ans, rfl⟩ := Pool.getElem?_step (S := system job) (e := e) h_t
  · exact ⟨t, h_other, h_kind⟩
  obtain ⟨next, rfl⟩ | rfl | ⟨next, rfl⟩ := h_kind
  · -- it looks, and is done or goes on to the save
    rw [step, Pool.step_access h_t]
    refine ⟨_, List.getElem?_set_self h_lt, ?_⟩
    split_ifs
    · exact .inr (.inl rfl)
    · exact .inr (.inr ⟨_, rfl⟩)
    · exact .inr (.inr ⟨_, rfl⟩)
  · rw [step, Pool.step_idle (.inr h_t)]
    exact ⟨.done, h_t, .inr (.inl rfl)⟩
  · -- the save would not be a move
    rw [step, Pool.step_access h_t] at h_same
    have h_running : s.row.status = .running := h_same.symm
    rw [h_running] at h_terminal
    exact absurd h_terminal (by decide)

abbrev Moves (job : Job) : Execution → List ExecutionEvent → Prop :=
  Along (step job) fun s _ t => s.row.status.MovesTo t.row.status

variable {as : List ExecutionEvent}

theorem Moves.terminal (h : Moves job s as) (h_terminal : s.row.status.Terminal) :
    (run (step job) s as).row.status = s.row.status :=
  h.invariant (I := fun t => t.row.status = s.row.status)
    (fun _ _ h_same h_moves => (h_moves.of_terminal (h_same ▸ h_terminal)).trans h_same) rfl

theorem Moves.cancels (h : Moves job s as) (h_cancels : s.row.status.Cancels) :
    (run (step job) s as).row.status.Cancels :=
  h.invariant (I := fun t => t.row.status.Cancels) (fun _ _ h_here h_moves => h_moves.cancels h_here)
    h_cancels

theorem Moves.inv (h : Moves job s as) (h_inv : Inv job s) : Inv job (run (step job) s as) :=
  h.invariant (fun _ _ h_here h_moves => inv_step h_here h_moves) h_inv

theorem Moves.not_executes (h : Moves job s (.start .worker :: as))
    (h_terminal : s.row.status.Terminal) :
    ¬Executes (run (step job) s (.start .worker :: as)).tasks[s.tasks.length]? := by
  have h_late : Late job s.tasks.length (step job s (.start .worker)) := by
    refine ⟨h_terminal, runJob job, ?_, .inl runJob_eq⟩
    exact List.getElem?_concat_length
  exact (h.2.invariant (fun _ _ h_here h_moves => late_step h_here h_moves) h_late).not_executes

theorem Inv.settled (h : Inv job s) (h_settled : s.Settled) : s.row.status ≠ .cancelling := by
  intro h_cancelling
  obtain ⟨t, h_t, h_converges⟩ := h.converges h_cancelling
  obtain rfl := h_settled t h_t
  obtain h_eq | ⟨rest, h_eq⟩ := h_converges
  · exact absurd h_eq nofun
  · exact absurd h_eq nofun

theorem Status.Cancels.eq_cancelled {status : Status} (h : status.Cancels)
    (h_open : status ≠ .cancelling) : status = .cancelled := by
  revert h h_open
  cases status <;> decide

/-- **The life cycle of an execution.** It is kept exactly if each save with no look comes in
time. -/
theorem statusLifeCycle_iff : LifeCycle job as ↔ Along (step job) (fun s e _ => Timely s e) .new as := by
  constructor
  · intro h
    refine along_iff_at_step.mpr fun pre e post h_as => ?_
    exact timely_of_movesTo (along_iff_at_step.mp h.moves pre e post h_as)
  · intro h
    have h_moves : Moves job .new as :=
      h.trans (I := Inv job) (fun s e h_inv h_timely =>
        have h_to := movesTo_of_timely h_inv h_timely
        ⟨inv_step h_inv h_to, h_to⟩) inv_new
    refine ⟨h_moves, ?_, ?_, ?_⟩
    · rintro pre post rfl h_terminal
      rw [run_append]
      exact Moves.terminal (along_append.mp h_moves).2 h_terminal
    · rintro pre mid post rfl h_terminal
      rw [run_append]
      have h_pre := (along_append.mp (along_append.mp h_moves).1).2
      exact Moves.not_executes h_pre h_terminal
    · rintro pre post rfl h_cancels h_end
      have h_still : (run (step job) .new (pre ++ post)).row.status.Cancels := by
        rw [run_append]
        exact Moves.cancels (along_append.mp h_moves).2 h_cancels
      obtain h_terminal | h_settled := h_end
      · exact h_terminal.cancelled h_still
      · exact h_still.eq_cancelled ((Moves.inv h_moves inv_new).settled h_settled)

section Examples

private def hostJob : Job :=
  ⟨.script, .manual, [⟨"", some "1", "host", "10.0.0.1"⟩], 1, [], .web, "http://callback", "", 10, id⟩

private def yes : Answer := ⟨[], true, none, [], .success, ""⟩

private def illegal : CallbackData := ⟨none, "[]", ""⟩

/-- The worker saves `running`, a cancel request is accepted, and a callback with an illegal result
comes in. -/
private def cancelledRun : List ExecutionEvent :=
  [.start .worker, .step 0 yes, .step 0 yes, .start .cancel, .step 1 yes, .step 1 yes,
    .start (.callback illegal), .step 2 yes]

/-- **A cancellation that is lost.** The callback makes the status `failed`. -/
theorem not_lifeCycle_illegal : ¬∀ job as, LifeCycle job as := by
  intro h_all
  have h := (h_all hostJob (cancelledRun ++ [.step 2 yes])).cancelled cancelledRun [.step 2 yes] rfl
  have h_cancelling : (run (step hostJob) .new cancelledRun).row.status = .cancelling := by decide
  have h_failed : (run (step hostJob) .new (cancelledRun ++ [.step 2 yes])).row.status = .failed := by
    decide
  rw [h_cancelling, h_failed] at h
  exact absurd (h (by decide) (.inl (by decide))) (by decide)

end Examples

end JobMgmt
