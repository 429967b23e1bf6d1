import BkLite.Ansible.Compaction

/-!
# Callbacks

What is promised of the callback of a task, over all runs of `BkLite.Ansible.Worker`:

* once a message of the task is acknowledged, the callback is sent, or a retry is queued, or the
  dead letter queue has an entry (`Reported`);
* the status of a task that is over is `callback_failed` exactly if the execution was a success
  and the callback has failed, and the status of the execution otherwise (`Coherent`);
* the result that was written is still there, but for a `callback_error` (`Written`).

Every run keeps the second. The first is lost by a worker that finds the task over and
acknowledges its message without looking at `callback_status`, the third by the retry loop, which
writes the compacted payload back as the result. `Safe` is about these two steps.
-/

namespace Ansible
namespace Callbacks

open Py Worker Compaction
open Lease (finalStatus finalStatus_isTerminal)

/-! ### The law -/

def Reported (s : State) (k : TaskId) : Prop :=
  ∃ row, s.store.lookup k = some row ∧ (row.callback.truthy = true →
    row.callbackStatus = .sent ∨ (∃ seq r, s.retries.lookup seq = some r ∧ r.taskId = k) ∨
      k ∈ s.dlq)

def Coherent (row : TaskRow) : Prop :=
  (row.status = .callbackFailed ↔
    row.executionStatus = .success ∧ row.callbackStatus = .failed) ∧
  (row.status ≠ .callbackFailed → row.status = row.executionStatus.toTaskStatus)

def Written (store : TaskStore) (e : Persisted) : Prop :=
  ∃ row, store.lookup e.task.taskId = some row ∧
    row.executionStatus = finalStatus e.outcome.success ∧ withoutError row.result = e.result

/-- No callback is dropped, and none damages the result or the status. -/
structure Law (s : State) : Prop where
  reported : ∀ k ∈ s.acked, Reported s k
  coherent : ∀ k row, s.store.lookup k = some row → row.executionStatus.isTerminal = true →
    Coherent row
  written : ∀ e ∈ s.results, Written s.store e

/-- Only a callback that is taken care of is acknowledged, only one that was not cut is noted. -/
def Safe (env : Env) (s : State) : Step → Prop
  | .ack i ok =>
    ∀ f, s.flights.lookup i = some f → f.stage = .skipping → ok = true →
      Reported s f.task.taskId
  | .retry seq called written _ _ _ _ =>
    ∀ r, s.retries.lookup seq = some r → called = true → written = true →
      ∀ e ∈ s.results, e.task.taskId = r.taskId → env.size e.result ≤ env.maxBytes
  | _ => True

/-! ### Rows -/

/-- The callback of a task that is not over is pending, if there is one. -/
structure CallRow (row : TaskRow) : Prop where
  pending : row.executionStatus.isTerminal = false →
    row.callbackStatus = if row.callback.truthy then .pending else .none
  coherent : row.executionStatus.isTerminal = true → Coherent row

/-- What the callbacks do not notice. -/
structure QuietRow (row row' : TaskRow) : Prop where
  callback : row'.callback = row.callback
  callbackStatus : row'.callbackStatus = row.callbackStatus
  ended : row.executionStatus.isTerminal = true → row' = row

theorem QuietRow.refl (row : TaskRow) : QuietRow row row := ⟨rfl, rfl, fun _ => rfl⟩

theorem toTaskStatus_ne_callbackFailed (e : ExecutionStatus) : e.toTaskStatus ≠ .callbackFailed := by
  cases e <;> exact TaskStatus.noConfusion

section Rows

variable {row : TaskRow} {result : Dict} {now : ℤ}

theorem coherent_calledBack {callbackStatus : CallbackStatus} (h : callbackStatus ≠ .failed) :
    Coherent (row.calledBack callbackStatus result now (some row.executionStatus)) := by
  have h_status : (row.calledBack callbackStatus result now (some row.executionStatus)).status =
      row.executionStatus.toTaskStatus := by
    show nextStatus row callbackStatus (some row.executionStatus) = _
    unfold nextStatus
    rw [if_neg fun h_failed => h h_failed.1]
    split_ifs
    · rfl
    · rfl
  constructor
  · rw [h_status]
    refine iff_of_false (toTaskStatus_ne_callbackFailed _) fun h_failed => h h_failed.2
  · intro _
    exact h_status

theorem coherent_failed (h : Coherent row) (h_pending : row.callbackStatus = .pending)
    (h_over : row.executionStatus.isTerminal = true) :
    Coherent (row.calledBack .failed result now (some row.executionStatus)) := by
  have h_ne : row.status ≠ .callbackFailed := by
    intro h_failed
    have h_cb := (h.1.mp h_failed).2
    rw [h_pending] at h_cb
    cases h_cb
  have h_same := h.2 h_ne
  have h_status : (row.calledBack .failed result now (some row.executionStatus)).status =
      nextStatus row .failed (some row.executionStatus) := rfl
  cases h_exec : row.executionStatus with
  | success =>
    -- the status becomes callback_failed
    rw [h_exec] at h_same
    have h_next : nextStatus row .failed (some row.executionStatus) = .callbackFailed := by
      unfold nextStatus
      rw [if_pos ⟨rfl, h_same⟩]
    rw [h_exec] at h_status h_next
    rw [h_next] at h_status
    refine ⟨iff_of_true h_status ⟨h_exec, rfl⟩, fun h_other => absurd h_status h_other⟩
  | failed =>
    rw [h_exec] at h_same
    have h_next : nextStatus row .failed (some row.executionStatus) = .failed := by
      unfold nextStatus
      rw [h_exec, h_same]
      rfl
    rw [h_exec] at h_status h_next
    rw [h_next] at h_status
    refine ⟨iff_of_false (fun h_failed => ?_) fun h_success => ?_, fun _ => ?_⟩
    · rw [h_status] at h_failed
      cases h_failed
    · exact absurd (h_exec.symm.trans h_success.1) (by decide)
    · exact h_status.trans (congrArg ExecutionStatus.toTaskStatus h_exec).symm
  | queued =>
    rw [h_exec] at h_over
    cases h_over
  | running =>
    rw [h_exec] at h_over
    cases h_over

theorem callRow_finished (h : CallRow row) (h_open : row.executionStatus.isTerminal = false)
    (success : Bool) : CallRow (row.finished (finalStatus success) result now) := by
  have h_over : (row.finished (finalStatus success) result now).executionStatus.isTerminal =
      true := finalStatus_isTerminal success
  have h_cb : row.callbackStatus ≠ .failed := by
    rw [h.pending h_open]
    split_ifs
    · exact CallbackStatus.noConfusion
    · exact CallbackStatus.noConfusion
  refine ⟨fun h_not => ?_, fun _ => ⟨iff_of_false ?_ fun h_failed => h_cb h_failed.2, fun _ => rfl⟩⟩
  · rw [h_over] at h_not
    cases h_not
  · exact toTaskStatus_ne_callbackFailed _

end Rows

/-! ### Invariant -/

def reports : Stage → Bool
  | .calling _ | .retrying _ _ => true
  | _ => false

def Stored (store : TaskStore) (task : QueuedTask) : Prop :=
  ∃ row, store.lookup task.taskId = some row ∧ row.callback.truthy = task.callback.truthy

def Calling (s : State) (e : Persisted) : Prop :=
  e ∈ s.results ∧
  (∃ row, s.store.lookup e.task.taskId = some row ∧ row.callbackStatus = .pending) ∧
  ∀ seq r, s.retries.lookup seq = some r → r.taskId ≠ e.task.taskId

def Compacted (env : Env) (s : State) (k : TaskId) (payload : Dict) : Prop :=
  ∃ e ∈ s.results, e.task.taskId = k ∧ payload = compactCallbackPayload env e.result

/-- What is so of a worker at a stage. -/
def StageOk (env : Env) (s : State) (task : QueuedTask) (ownerId : Owner) : Stage → Prop
  | .calling o => Calling s ⟨task, ownerId, o⟩
  | .retrying payload _ => Compacted env s task.taskId payload
  | .acking => Reported s task.taskId
  | .running | .failing | .skipping => True

/-- The invariant of the runs whose steps are safe. -/
structure Good (env : Env) (s : State) : Prop where
  rows : ∀ k row, s.store.lookup k = some row → CallRow row
  publishing : ∀ task ∈ s.publishing, Stored s.store task
  queue : ∀ seq msg, s.queue.lookup seq = some msg → Stored s.store msg.task
  flights : ∀ i f, s.flights.lookup i = some f → Stored s.store f.task
  stages : ∀ i f, s.flights.lookup i = some f → StageOk env s f.task f.ownerId f.stage
  /-- At most one worker reports on a task. -/
  alone : ∀ i j f g, s.flights.lookup i = some f → s.flights.lookup j = some g →
    reports f.stage = true → reports g.stage = true → f.task.taskId = g.task.taskId → i = j
  below : Table.Below s.retries s.nextSeq
  retries : ∀ seq r, s.retries.lookup seq = some r → Compacted env s r.taskId r.payload
  written : ∀ e ∈ s.results, Written s.store e
  /-- A task has one result. -/
  unique : ∀ e ∈ s.results, ∀ e' ∈ s.results, e.task.taskId = e'.task.taskId → e = e'
  reported : ∀ k ∈ s.acked, Reported s k

section Good

variable {env : Env} {s : State}

theorem Good.law (h : Good env s) : Law s where
  reported := h.reported
  coherent k row h_row h_over := (h.rows k row h_row).coherent h_over
  written := h.written

theorem Good.initial : Good env {} where
  rows _ _ h := nomatch h
  publishing _ h := absurd h List.not_mem_nil
  queue _ _ h := nomatch h
  flights _ _ h := nomatch h
  stages _ _ h := nomatch h
  alone _ _ _ _ h := nomatch h
  below _ _ := rfl
  retries _ _ h := nomatch h
  written _ h := absurd h List.not_mem_nil
  unique _ h := absurd h List.not_mem_nil
  reported _ h := absurd h List.not_mem_nil

/-! ### The store changes -/

theorem Stored.mono {store store' : TaskStore} {task : QueuedTask} (h : Stored store task)
    (h_store : Table.Evolves (fun row row' => row'.callback = row.callback) store store') :
    Stored store' task := by
  obtain ⟨row, h_row, h_callback⟩ := h
  obtain ⟨row', h_row', h_same⟩ := h_store _ row h_row
  refine ⟨row', h_row', ?_⟩
  rw [h_same]
  exact h_callback

theorem Reported.withStore {k : TaskId} (h : Reported s k) {store : TaskStore}
    (h_store : Table.Evolves (fun row row' => row'.callback = row.callback ∧
      (row.callbackStatus = .sent → row'.callbackStatus = .sent)) s.store store) :
    Reported { s with store } k := by
  obtain ⟨row, h_row, h_reported⟩ := h
  obtain ⟨row', h_row', h_same, h_sent⟩ := h_store k row h_row
  refine ⟨row', h_row', fun h_callback => ?_⟩
  rw [h_same] at h_callback
  exact (h_reported h_callback).imp h_sent id

theorem Written.withStore {store store' : TaskStore} {e : Persisted} (h : Written store e)
    (h_store : Table.Evolves QuietRow store store') : Written store' e := by
  obtain ⟨row, h_row, h_status, h_result⟩ := h
  obtain ⟨row', h_row', h_quiet⟩ := h_store _ row h_row
  have h_same : row' = row := h_quiet.ended (by rw [h_status, finalStatus_isTerminal])
  rw [h_same] at h_row'
  exact ⟨row, h_row', h_status, h_result⟩

theorem StageOk.mono {s' : State} {task : QueuedTask} {ownerId : Owner} {stage : Stage}
    (h : StageOk env s task ownerId stage)
    (h_calling : ∀ o, stage = .calling o → Calling s ⟨task, ownerId, o⟩ →
      Calling s' ⟨task, ownerId, o⟩)
    (h_compacted : ∀ k payload, Compacted env s k payload → Compacted env s' k payload)
    (h_reported : ∀ k, Reported s k → Reported s' k) : StageOk env s' task ownerId stage := by
  cases stage with
  | calling o => exact h_calling o rfl h
  | retrying payload reason => exact h_compacted _ _ h
  | acking => exact h_reported _ h
  | running | failing | skipping => trivial

theorem Good.withStore (h : Good env s) {store : TaskStore}
    (h_rows : ∀ k row, store.lookup k = some row → CallRow row)
    (h_store : Table.Evolves QuietRow s.store store) : Good env { s with store } := by
  have h_callback := h_store.mono fun _ _ h_quiet => h_quiet.callback
  have h_sent := h_store.mono fun (row row' : TaskRow) (h_quiet : QuietRow row row') =>
    (⟨h_quiet.callback, fun h_sent => h_quiet.callbackStatus.trans h_sent⟩ :
      row'.callback = row.callback ∧ (row.callbackStatus = .sent → row'.callbackStatus = .sent))
  refine
    { h with
      rows := h_rows
      publishing := fun task h_task => (h.publishing task h_task).mono h_callback
      queue := fun seq msg h_msg => (h.queue seq msg h_msg).mono h_callback
      flights := fun i f h_f => (h.flights i f h_f).mono h_callback
      stages := fun i f h_f => (h.stages i f h_f).mono ?_ (fun _ _ => id)
        fun k h_k => h_k.withStore h_sent
      written := fun e h_e => (h.written e h_e).withStore h_store
      reported := fun k h_k => (h.reported k h_k).withStore h_sent }
  rintro o - ⟨h_mem, ⟨row, h_row, h_pending⟩, h_first⟩
  obtain ⟨row', h_row', h_quiet⟩ := h_store _ row h_row
  exact ⟨h_mem, ⟨row', h_row', h_quiet.callbackStatus.trans h_pending⟩, h_first⟩

theorem Good.report (h : Good env s) {k : TaskId} {row : TaskRow}
    (h_row : s.store.lookup k = some row) (h_over : row.executionStatus.isTerminal = true)
    (callbackStatus : CallbackStatus) (result : Dict) (now : ℤ)
    (preserveStatus : Option ExecutionStatus)
    (h_coherent : Coherent (row.calledBack callbackStatus result now preserveStatus))
    (h_sent : row.callbackStatus = .sent → callbackStatus = .sent)
    (h_idle : ∀ i f o, s.flights.lookup i = some f → f.stage = .calling o → f.task.taskId ≠ k)
    (h_result : ∀ e ∈ s.results, e.task.taskId = k → withoutError result = e.result) :
    Good env { s with
      store := updateCallbackStatus k callbackStatus result now preserveStatus s.store } := by
  rw [updateCallbackStatus_of_some h_row]
  have h_evolves : Table.Evolves (fun row row' => row'.callback = row.callback ∧
      (row.callbackStatus = .sent → row'.callbackStatus = .sent)) s.store
      (s.store.insert k (row.calledBack callbackStatus result now preserveStatus)) :=
    Table.evolves_update (fun _ => ⟨rfl, id⟩) h_row ⟨rfl, h_sent⟩
  have h_callback := h_evolves.mono fun _ _ h_both => h_both.1
  refine
    { h with
      rows := Table.forall_insert h.rows ⟨fun h_open => ?_, fun _ => h_coherent⟩
      publishing := fun task h_task => (h.publishing task h_task).mono h_callback
      queue := fun seq msg h_msg => (h.queue seq msg h_msg).mono h_callback
      flights := fun i f h_f => (h.flights i f h_f).mono h_callback
      stages := fun i f h_f => (h.stages i f h_f).mono (fun o h_eq h_calling => ?_) (fun _ _ => id)
        fun k' h_k' => h_k'.withStore h_evolves
      written := fun e h_e => ?_
      reported := fun k' h_k' => (h.reported k' h_k').withStore h_evolves }
  · exact absurd (h_over.symm.trans h_open) Bool.noConfusion
  · -- the callbacks that are under way are those of other tasks
    obtain ⟨h_mem, ⟨row', h_row', h_pending⟩, h_first⟩ := h_calling
    refine ⟨h_mem, ⟨row', ?_, h_pending⟩, h_first⟩
    exact (AList.lookup_insert_ne (h_idle i f o h_f h_eq)).trans h_row'
  · obtain ⟨row', h_row', h_status, h_same⟩ := h.written e h_e
    by_cases h_key : e.task.taskId = k
    · have h_eq : row' = row := by
        rw [h_key, h_row] at h_row'
        exact (Option.some.inj h_row').symm
      subst h_eq
      refine ⟨row'.calledBack callbackStatus result now preserveStatus, ?_, h_status,
        h_result e h_e h_key⟩
      rw [h_key]
      exact AList.lookup_insert s.store
    · exact ⟨row', (AList.lookup_insert_ne h_key).trans h_row', h_status, h_same⟩

theorem Good.persist (h : Good env s) {task : QueuedTask} {row : TaskRow}
    (h_row : s.store.lookup task.taskId = some row)
    (h_open : row.executionStatus.isTerminal = false) (ownerId : Owner) (o : RunOutcome) (now : ℤ) :
    Good env { s with
      store := s.store.insert task.taskId
        (row.finished (finalStatus o.success) (buildTaskResult task ownerId o) now)
      results := ⟨task, ownerId, o⟩ :: s.results } := by
  have h_not : ¬Over s.store task.taskId := by
    rintro ⟨row₀, h_row₀, h_over⟩
    cases h_row.symm.trans h_row₀
    exact absurd (h_over.symm.trans h_open) Bool.noConfusion
  -- so it has no result yet
  have h_new : ∀ e ∈ s.results, e.task.taskId ≠ task.taskId := by
    intro e h_e h_key
    obtain ⟨row₀, h_row₀, h_status, -⟩ := h.written e h_e
    apply h_not
    rw [← h_key]
    exact ⟨row₀, h_row₀, by rw [h_status, finalStatus_isTerminal]⟩
  have h_evolves : Table.Evolves (fun row row' => row'.callback = row.callback ∧
      (row.callbackStatus = .sent → row'.callbackStatus = .sent)) s.store
      (s.store.insert task.taskId
        (row.finished (finalStatus o.success) (buildTaskResult task ownerId o) now)) :=
    Table.evolves_update (fun _ => ⟨rfl, id⟩) h_row ⟨rfl, id⟩
  have h_callback := h_evolves.mono fun _ _ h_both => h_both.1
  have h_compacted : ∀ k payload, Compacted env s k payload → Compacted env { s with
      store := s.store.insert task.taskId
        (row.finished (finalStatus o.success) (buildTaskResult task ownerId o) now)
      results := ⟨task, ownerId, o⟩ :: s.results } k payload := by
    rintro k payload ⟨e, h_e, h_eq⟩
    exact ⟨e, List.mem_cons_of_mem _ h_e, h_eq⟩
  refine
    { h with
      rows := Table.forall_insert h.rows (callRow_finished (h.rows _ row h_row) h_open _)
      publishing := fun task h_task => (h.publishing task h_task).mono h_callback
      queue := fun seq msg h_msg => (h.queue seq msg h_msg).mono h_callback
      flights := fun i f h_f => (h.flights i f h_f).mono h_callback
      stages := fun i f h_f => (h.stages i f h_f).mono ?_ h_compacted
        fun k h_k => h_k.withStore h_evolves
      retries := fun seq r h_r => h_compacted _ _ (h.retries seq r h_r)
      written := fun e h_e => ?_
      unique := fun e h_e e' h_e' h_key => ?_
      reported := fun k h_k => (h.reported k h_k).withStore h_evolves }
  · rintro o' - ⟨h_mem, ⟨row', h_row', h_pending⟩, h_first⟩
    have h_ne : f.task.taskId ≠ task.taskId := h_new _ h_mem
    exact ⟨List.mem_cons_of_mem _ h_mem,
      ⟨row', (AList.lookup_insert_ne h_ne).trans h_row', h_pending⟩, h_first⟩
  · rcases List.mem_cons.mp h_e with rfl | h_old
    · exact ⟨_, AList.lookup_insert s.store, rfl, withoutError_buildTaskResult task ownerId o⟩
    · obtain ⟨row', h_row', h_rest⟩ := h.written e h_old
      exact ⟨row', (AList.lookup_insert_ne (h_new e h_old)).trans h_row', h_rest⟩
  · rcases List.mem_cons.mp h_e with rfl | h_old
    · rcases List.mem_cons.mp h_e' with rfl | h_old'
      · rfl
      · exact absurd h_key.symm (h_new e' h_old')
    · rcases List.mem_cons.mp h_e' with rfl | h_old'
      · exact absurd h_key (h_new e h_old)
      · exact h.unique e h_old e' h_old' h_key

/-! ### The queues and the workers change -/

theorem Good.withPublishing (h : Good env s) {publishing : List QueuedTask}
    (h_publishing : ∀ task ∈ publishing, Stored s.store task) : Good env { s with publishing } :=
  { h with
    publishing := h_publishing }

theorem Good.withQueue (h : Good env s) {queue : Table ℕ Message} {nextSeq : ℕ}
    (h_le : s.nextSeq ≤ nextSeq)
    (h_queue : ∀ seq msg, queue.lookup seq = some msg → Stored s.store msg.task) :
    Good env { s with queue, nextSeq } :=
  { h with
    queue := h_queue
    below := h.below.mono h_le }

theorem Good.withAccepted (h : Good env s) (accepted : List TaskId) :
    Good env { s with accepted } where
  rows := h.rows
  publishing := h.publishing
  queue := h.queue
  flights := h.flights
  stages := h.stages
  alone := h.alone
  below := h.below
  retries := h.retries
  written := h.written
  unique := h.unique
  reported := h.reported

theorem Good.addFlight (h : Good env s) {f : Flight} (h_task : Stored s.store f.task)
    (h_stage : StageOk env s f.task f.ownerId f.stage) (h_reports : reports f.stage = false) :
    Good env (s.addFlight f) :=
  { h with
    flights i f' h_f := by
      rcases lookup_addFlight h_f with rfl | h_old
      · exact h_task
      · exact h.flights i f' h_old
    stages i f' h_f := by
      rcases lookup_addFlight h_f with rfl | h_old
      · exact h_stage
      · exact h.stages i f' h_old
    alone i j f₁ f₂ h_f₁ h_f₂ h_reports₁ h_reports₂ h_key := by
      rcases lookup_addFlight h_f₁ with rfl | h_old₁
      · exact absurd (h_reports.symm.trans h_reports₁) Bool.noConfusion
      · rcases lookup_addFlight h_f₂ with rfl | h_old₂
        · exact absurd (h_reports.symm.trans h_reports₂) Bool.noConfusion
        · exact h.alone i j f₁ f₂ h_old₁ h_old₂ h_reports₁ h_reports₂ h_key
    below := h.below.mono (Nat.le_succ _) }

theorem Good.dropFlight (h : Good env s) (i : ℕ) : Good env (s.dropFlight i) where
  rows := h.rows
  publishing := h.publishing
  queue := h.queue
  flights j f h_f := h.flights j f (Table.lookup_of_erase h_f).2
  stages j f h_f := h.stages j f (Table.lookup_of_erase h_f).2
  alone i j f g h_f h_g :=
    h.alone i j f g (Table.lookup_of_erase h_f).2 (Table.lookup_of_erase h_g).2
  below := h.below
  retries := h.retries
  written := h.written
  unique := h.unique
  reported := h.reported

theorem Good.setStage (h : Good env s) {i : ℕ} {f : Flight} (h_f : s.flights.lookup i = some f)
    {stage : Stage} (h_stage : StageOk env s f.task f.ownerId stage)
    (h_alone : reports stage = true → ∀ j g, s.flights.lookup j = some g →
      reports g.stage = true → g.task.taskId = f.task.taskId → i = j) :
    Good env (s.setStage i stage) :=
  { h with
    flights j f' h_f' := by
      obtain ⟨f₀, h_f₀, ⟨-, rfl⟩ | ⟨-, rfl⟩⟩ := lookup_setStage h_f'
      · exact h.flights j f' h_f₀
      · exact h.flights j f₀ h_f₀
    stages j f' h_f' := by
      obtain ⟨f₀, h_f₀, ⟨-, rfl⟩ | ⟨rfl, rfl⟩⟩ := lookup_setStage h_f'
      · exact h.stages j f' h_f₀
      · cases h_f.symm.trans h_f₀
        exact h_stage
    alone j₁ j₂ f₁ f₂ h_f₁ h_f₂ h_reports₁ h_reports₂ h_key := by
      obtain ⟨f₁', h_f₁', ⟨-, rfl⟩ | ⟨rfl, rfl⟩⟩ := lookup_setStage h_f₁
      · obtain ⟨f₂', h_f₂', ⟨-, rfl⟩ | ⟨rfl, rfl⟩⟩ := lookup_setStage h_f₂
        · exact h.alone j₁ j₂ f₁ f₂ h_f₁' h_f₂' h_reports₁ h_reports₂ h_key
        · cases h_f.symm.trans h_f₂'
          exact (h_alone h_reports₂ j₁ f₁ h_f₁' h_reports₁ h_key).symm
      · obtain ⟨f₂', h_f₂', ⟨-, rfl⟩ | ⟨rfl, rfl⟩⟩ := lookup_setStage h_f₂
        · cases h_f.symm.trans h_f₁'
          exact h_alone h_reports₁ j₂ f₂ h_f₂' h_reports₂ h_key.symm
        · rfl }

theorem Good.rest (h : Good env s) {i : ℕ} {f : Flight} (h_f : s.flights.lookup i = some f)
    {stage : Stage} (h_stage : StageOk env s f.task f.ownerId stage)
    (h_reports : reports stage = false) : Good env (s.setStage i stage) :=
  h.setStage h_f h_stage fun h_true => absurd (h_reports.symm.trans h_true) Bool.noConfusion

theorem Good.acknowledge (h : Good env s) {f : Flight} (h_reported : Reported s f.task.taskId) :
    Good env (s.acknowledge f) :=
  { h with
    queue seq msg h_msg := h.queue seq msg (Table.lookup_of_erase h_msg).2
    reported k h_k := by
      rcases List.mem_cons.mp h_k with rfl | h_old
      · exact h_reported
      · exact h.reported k h_old }

theorem Good.withRetries (h : Good env s) {retries : Table ℕ Retry} {nextSeq : ℕ}
    {dlq : List TaskId} (h_below : Table.Below retries nextSeq)
    (h_retries : ∀ seq r, retries.lookup seq = some r → Compacted env s r.taskId r.payload)
    (h_first : ∀ i f o, s.flights.lookup i = some f → f.stage = .calling o →
      ∀ seq r, retries.lookup seq = some r → r.taskId ≠ f.task.taskId)
    (h_reported : ∀ k, Reported s k → Reported { s with retries, nextSeq, dlq } k) :
    Good env { s with retries, nextSeq, dlq } :=
  { h with
    stages i f h_f := (h.stages i f h_f).mono
      (fun o h_eq h_calling => ⟨h_calling.1, h_calling.2.1, h_first i f o h_f h_eq⟩)
      (fun _ _ => id) h_reported
    below := h_below
    retries := h_retries
    reported k h_k := h_reported k (h.reported k h_k) }

theorem Good.first (h : Good env s) {i : ℕ} {f : Flight} {o : RunOutcome}
    (h_f : s.flights.lookup i = some f) (h_eq : f.stage = .calling o) :
    Calling s ⟨f.task, f.ownerId, o⟩ := by
  have h_stage := h.stages i f h_f
  rw [h_eq] at h_stage
  exact h_stage

theorem Good.deadLetter (h : Good env s) (k : TaskId) : Good env (s.deadLetter k) := by
  refine h.withRetries h.below h.retries (fun i f o h_f h_eq => ?_) fun k' => ?_
  · exact (h.first h_f h_eq).2.2
  · rintro ⟨row, h_row, h_reported⟩
    refine ⟨row, h_row, fun h_callback => ?_⟩
    exact (h_reported h_callback).imp id (Or.imp id (List.mem_cons_of_mem k))

theorem Good.enqueueRetry (h : Good env s) {r : Retry} (h_r : Compacted env s r.taskId r.payload)
    (h_idle : ∀ i f o, s.flights.lookup i = some f → f.stage = .calling o →
      f.task.taskId ≠ r.taskId) : Good env (s.enqueueRetry r) := by
  refine h.withRetries ((h.below.mono (Nat.le_succ _)).insert (Nat.lt_succ_self _))
    (lookup_insert_retry h.retries h_r) (fun i f o h_f h_eq => ?_) fun k => ?_
  · exact lookup_insert_retry (h.first h_f h_eq).2.2 (h_idle i f o h_f h_eq).symm
  · rintro ⟨row, h_row, h_reported⟩
    refine ⟨row, h_row, fun h_callback => ?_⟩
    refine (h_reported h_callback).imp id (Or.imp ?_ id)
    rintro ⟨seq, r', h_r', h_k⟩
    -- the new number is that of no message
    refine ⟨seq, r', ?_, h_k⟩
    exact (AList.lookup_insert_ne (Nat.ne_of_lt (h.below.lt h_r'))).trans h_r'

theorem Good.countRetry (h : Good env s) {seq : ℕ} {r : Retry}
    (h_r : s.retries.lookup seq = some r) : Good env (s.countRetry seq r) := by
  refine h.withRetries (h.below.insert (h.below.lt h_r))
    (lookup_insert_retry h.retries (h.retries seq r h_r)) (fun i f o h_f h_eq => ?_) fun k => ?_
  · have h_first := (h.first h_f h_eq).2.2
    exact lookup_insert_retry h_first (h_first seq r h_r)
  · rintro ⟨row, h_row, h_reported⟩
    refine ⟨row, h_row, fun h_callback => ?_⟩
    refine (h_reported h_callback).imp id (Or.imp ?_ id)
    rintro ⟨seq', r', h_r', h_k⟩
    by_cases h_seq : seq' = seq
    · subst h_seq
      cases h_r.symm.trans h_r'
      exact ⟨seq', _, AList.lookup_insert s.retries, h_k⟩
    · exact ⟨seq', r', (AList.lookup_insert_ne h_seq).trans h_r', h_k⟩

theorem Good.dropRetry (h : Good env s) {seq : ℕ} {r : Retry}
    (h_r : s.retries.lookup seq = some r)
    (h_gone : (∃ row, s.store.lookup r.taskId = some row ∧ row.callbackStatus = .sent) ∨
      r.taskId ∈ s.dlq) : Good env (s.dropRetry seq) := by
  refine h.withRetries (h.below.erase seq)
    (fun seq' r' h_r' => h.retries seq' r' (Table.lookup_of_erase h_r').2)
    (fun i f o h_f h_eq seq' r' h_r' => ?_) fun k => ?_
  · exact (h.first h_f h_eq).2.2 seq' r' (Table.lookup_of_erase h_r').2
  · rintro ⟨row, h_row, h_reported⟩
    refine ⟨row, h_row, fun h_callback => ?_⟩
    rcases h_reported h_callback with h_sent | ⟨seq', r', h_r', h_k⟩ | h_dlq
    · exact Or.inl h_sent
    · by_cases h_seq : seq' = seq
      · subst h_seq
        cases h_r.symm.trans h_r'
        rcases h_gone with ⟨row', h_row', h_sent⟩ | h_dlq
        · rw [h_k, h_row] at h_row'
          cases h_row'
          exact Or.inl h_sent
        · exact Or.inr (Or.inr (h_k ▸ h_dlq))
      · refine Or.inr (Or.inl ⟨seq', r', ?_, h_k⟩)
        change (s.retries.erase seq).lookup seq' = some r'
        rw [Table.lookup_erase, if_neg h_seq]
        exact h_r'
    · exact Or.inr (Or.inr h_dlq)

end Good

/-! ### One lemma for each step -/

section Steps

variable {env : Env} {s : State}

theorem truthy_orElse_empty (v : Value) : (v.orElse (.dict [])).truthy = v.truthy := by
  unfold Value.orElse
  split_ifs with h
  · rfl
  · rw [Bool.not_eq_true] at h
    rw [h]
    rfl

theorem Good.no_result (h : Good env s) {k : TaskId} {row : TaskRow}
    (h_row : s.store.lookup k = some row) (h_open : row.executionStatus.isTerminal = false) :
    ∀ e ∈ s.results, e.task.taskId ≠ k := by
  rintro e h_e rfl
  obtain ⟨row₀, h_row₀, h_status, -⟩ := h.written e h_e
  cases h_row.symm.trans h_row₀
  rw [h_status, finalStatus_isTerminal] at h_open
  cases h_open

theorem Good.result_of_reports (h : Good env s) {i : ℕ} {f : Flight}
    (h_f : s.flights.lookup i = some f) (h_reports : reports f.stage = true) :
    ∃ e ∈ s.results, e.task.taskId = f.task.taskId := by
  have h_stage := h.stages i f h_f
  cases h_eq : f.stage with
  | calling o =>
    rw [h_eq] at h_stage
    exact ⟨_, h_stage.1, rfl⟩
  | retrying payload reason =>
    rw [h_eq] at h_stage
    obtain ⟨e, h_e, h_key, -⟩ := h_stage
    exact ⟨e, h_e, h_key⟩
  | _ =>
    rw [h_eq] at h_reports
    cases h_reports

theorem good_request (h : Good env s) (payload : Dict) (taskType uuid instanceId : String)
    (now : ℤ) (answered : Bool) :
    Good env (step env s (.request payload taskType uuid instanceId now answered)) := by
  unfold step
  dsimp only
  set task := requestTask env payload taskType uuid instanceId
  cases h_row : s.store.lookup task.taskId with
  | some row =>
    rw [createIfAbsent_of_some h_row, if_neg Bool.false_ne_true]
    exact h.withAccepted _
  | none =>
    rw [createIfAbsent_of_none h_row, if_pos rfl]
    set row := newRow .queued (setItem payload "task_id" (.str task.taskId)) task.callback now
    have h_truthy : row.callback.truthy = task.callback.truthy := truthy_orElse_empty _
    have h_new : CallRow row := by
      refine ⟨fun _ => ?_, fun h_over => nomatch h_over⟩
      rw [h_truthy]
      rfl
    have h_created : Good env { s with store := s.store.insert task.taskId row } := by
      refine h.withStore (Table.forall_insert h.rows h_new) ?_
      refine Table.evolves_insert QuietRow.refl fun row₀ h_row₀ => ?_
      cases h_row.symm.trans h_row₀
    refine h_created.withPublishing fun task' h_task' => ?_
    rcases List.mem_append.mp h_task' with h_old | h_last
    · exact h_created.publishing task' h_old
    · rw [List.mem_singleton.mp h_last]
      exact ⟨row, AList.lookup_insert s.store, h_truthy⟩

theorem good_publish (h : Good env s) (i : ℕ) (outcome : PublishOutcome) :
    Good env (step env s (.publish i outcome)) := by
  unfold step
  dsimp only
  split
  · exact h
  · next task h_task =>
    have h_stored : Stored s.store task := h.publishing task (List.mem_of_getElem? h_task)
    have h_taken : Good env { s with publishing := s.publishing.eraseIdx i } :=
      h.withPublishing fun task' h_task' => h.publishing task' (List.mem_of_mem_eraseIdx h_task')
    have h_queued : Good env ({ s with publishing := s.publishing.eraseIdx i }.enqueue task) :=
      h_taken.withQueue (Nat.le_succ _) (Table.forall_insert h.queue h_stored)
    cases outcome with
    | stored answered => exact h_queued.withAccepted _
    | raised stored =>
      dsimp only
      split_ifs
      · exact h_queued
      · exact h_taken

theorem good_deliver (h : Good env s) (seq : ℕ) (ownerId : Owner)
    (leaseExpiresAt now : ℤ) (raises : Bool) :
    Good env (step env s (.deliver seq ownerId leaseExpiresAt now raises)) := by
  unfold step
  dsimp only
  cases h_msg : s.queue.lookup seq with
  | none => exact h
  | some msg =>
    dsimp only
    have h_stored : Stored s.store msg.task := h.queue seq msg h_msg
    have h_touched : Good env (s.redeliver seq msg) :=
      h.withQueue le_rfl (Table.forall_insert h.queue h_stored)
    split_ifs
    · exact h_touched.addFlight h_stored trivial rfl
    · exact h_touched.addFlight h_stored trivial rfl
    · rcases claimTask_cases msg.task.taskId ownerId leaseExpiresAt now
        (s.redeliver seq msg).store with ⟨h_refused, h_same⟩ | ⟨row, h_row, -, h_open, -, h_eq⟩
      · split
        next h_claim =>
          rw [h_claim] at h_refused
          cases h_refused
        · exact h_touched.addFlight h_stored trivial rfl
        · exact h_touched
        · exact h_touched
      · rw [h_eq]
        -- a claim changes a row that is not over
        have h_evolves : Table.Evolves QuietRow s.store
            (s.store.insert msg.task.taskId (row.claimedBy ownerId leaseExpiresAt now)) := by
          refine Table.evolves_update QuietRow.refl h_row ⟨rfl, rfl, fun h_over => ?_⟩
          exact absurd (h_over.symm.trans h_open) Bool.noConfusion
        have h_claimed : Good env { s.redeliver seq msg with
            store := s.store.insert msg.task.taskId
              (row.claimedBy ownerId leaseExpiresAt now) } :=
          h_touched.withStore (Table.forall_insert h.rows
            ⟨fun _ => (h.rows _ row h_row).pending h_open, fun h_over => nomatch h_over⟩) h_evolves
        exact h_claimed.addFlight
          (h_stored.mono (h_evolves.mono fun _ _ h_quiet => h_quiet.callback)) trivial rfl

theorem good_renew (h : Good env s) (i : ℕ) (leaseExpiresAt now : ℤ) :
    Good env (step env s (.renew i leaseExpiresAt now)) := by
  unfold step
  dsimp only
  split
  · exact h
  · next f h_f =>
    rcases renewLease_cases f.task.taskId f.ownerId leaseExpiresAt now s.store with
      h_refused | ⟨row, h_row, -, h_running, h_eq⟩
    · rw [h_refused]
      exact h
    · rw [h_eq]
      have h_open : row.executionStatus.isTerminal = false := by
        rw [h_running]
        rfl
      refine h.withStore (Table.forall_insert h.rows
        ⟨(h.rows _ row h_row).pending, (h.rows _ row h_row).coherent⟩) ?_
      refine Table.evolves_update QuietRow.refl h_row ⟨rfl, rfl, fun h_over => ?_⟩
      exact absurd (h_over.symm.trans h_open) Bool.noConfusion

theorem setStage_setStage (s : State) (i : ℕ) (stage stage' : Stage) :
    (s.setStage i stage).setStage i stage' = s.setStage i stage' := by
  unfold State.setStage Table.modify
  cases h_f : s.flights.lookup i with
  | none =>
    dsimp only
    rw [h_f]
  | some f =>
    dsimp only
    rw [AList.lookup_insert]
    dsimp only
    rw [AList.insert_insert]

theorem good_finish (h : Good env s) (h_inv : Inv s) (i : ℕ) (outcome : RunOutcome) (now : ℤ)
    (raises raisesAfter : Bool) :
    Good env (step env s (.finish i outcome now raises raisesAfter)) := by
  unfold step
  dsimp only
  split
  next seq task delivered ownerId h_f =>
    rcases updateExecutionResult_cases task.taskId (finalStatus outcome.success)
      (buildTaskResult task ownerId outcome) now ownerId s.store with
      h_refused | ⟨row, h_row, h_owner, h_eq⟩
    · rw [h_refused, if_pos (show (raises || !false) = true from Bool.or_true raises)]
      exact h.rest h_f trivial rfl
    · rw [h_eq]
      -- the row is leased, so its task is not over
      have h_open : row.executionStatus.isTerminal = false := by
        rw [(h_inv.rows _ row h_row).leased ownerId h_owner]
        rfl
      have h_written := h.persist h_row h_open ownerId outcome now
      have h_none := h.no_result h_row h_open
      have h_callback : row.callback.truthy = task.callback.truthy := by
        obtain ⟨row₀, h_row₀, h_same⟩ := h.flights i _ h_f
        cases h_row.symm.trans h_row₀
        exact h_same
      have h_pending := (h.rows _ row h_row).pending h_open
      set row' := row.finished (finalStatus outcome.success)
        (buildTaskResult task ownerId outcome) now
      have h_row' : (s.store.insert task.taskId row').lookup task.taskId = some row' :=
        AList.lookup_insert s.store
      split_ifs with h_raises h_truthy h_after
      · exact h.rest h_f trivial rfl
      · refine h_written.setStage h_f ⟨List.mem_cons_self, ⟨row', h_row', ?_⟩, ?_⟩ ?_
        · show row.callbackStatus = .pending
          rw [h_pending, h_callback, if_pos h_truthy]
        · intro seq' r h_r h_key
          obtain ⟨e, h_e, h_e_key, -⟩ := h.retries seq' r h_r
          exact h_none e h_e (h_e_key.trans h_key)
        · intro _ j g h_g h_reports h_key
          obtain ⟨e, h_e, h_e_key⟩ := h.result_of_reports h_g h_reports
          exact absurd (h_e_key.trans h_key) (h_none e h_e)
      · exact h_written.rest h_f trivial rfl
      · have h_no_callback : row.callbackStatus = .none := by
          rw [h_pending, h_callback, if_neg h_truthy]
        have h_noted := h_written.report h_row' (finalStatus_isTerminal outcome.success) .none
          (buildTaskResult task ownerId outcome) now (some (finalStatus outcome.success))
          (coherent_calledBack CallbackStatus.noConfusion)
          (fun h_sent => absurd (h_no_callback.symm.trans h_sent) CallbackStatus.noConfusion)
          (fun j g o h_g h_calling h_key => ?_) fun e h_e h_key => ?_
        · refine h_noted.rest h_f ⟨row'.calledBack .none (buildTaskResult task ownerId outcome) now
            (some (finalStatus outcome.success)), ?_, fun h_true => ?_⟩ rfl
          · show (updateCallbackStatus _ _ _ _ _ _).lookup task.taskId = _
            rw [updateCallbackStatus_of_some h_row']
            exact AList.lookup_insert _
          · exact absurd (h_callback.symm.trans h_true) h_truthy
        · obtain ⟨e, h_e, h_e_key⟩ := h.result_of_reports h_g (by rw [h_calling]; rfl)
          exact absurd (h_e_key.trans h_key) (h_none e h_e)
        · rcases List.mem_cons.mp h_e with rfl | h_old
          · exact withoutError_buildTaskResult task ownerId outcome
          · exact absurd h_key (h_none e h_old)
  next => exact h

theorem Good.row_of_result (h : Good env s) {e : Persisted} (h_e : e ∈ s.results) :
    ∃ row, s.store.lookup e.task.taskId = some row ∧
      row.executionStatus = finalStatus e.outcome.success ∧
      row.executionStatus.isTerminal = true := by
  obtain ⟨row, h_row, h_status, -⟩ := h.written e h_e
  refine ⟨row, h_row, h_status, ?_⟩
  rw [h_status]
  exact finalStatus_isTerminal e.outcome.success

theorem good_callback (h : Good env s) (i : ℕ) (ok : Bool) (error : String) (now : ℤ)
    (raises : Bool) : Good env (step env s (.callback i ok error now raises)) := by
  unfold step
  dsimp only
  split
  next seq task delivered ownerId outcome h_f =>
    obtain ⟨h_mem, ⟨row₀, h_row₀, h_pending⟩, h_first⟩ := h.first h_f rfl
    obtain ⟨row, h_row, h_status, h_over⟩ := h.row_of_result h_mem
    obtain rfl : row = row₀ := Option.some.inj (h_row.symm.trans h_row₀)
    dsimp only at h_row h_status h_first
    -- no other worker reports on the task
    have h_idle : ∀ stage, reports stage = false ∨ (∃ payload reason, stage = .retrying payload
        reason) → ∀ j g o, (s.setStage i stage).flights.lookup j = some g → g.stage = .calling o →
          g.task.taskId ≠ task.taskId := by
      intro stage h_stage j g o h_g h_calling h_key
      obtain ⟨g₀, h_g₀, ⟨h_ne, rfl⟩ | ⟨-, rfl⟩⟩ := lookup_setStage h_g
      · exact h_ne (h.alone i j _ g h_f h_g₀ rfl (by rw [h_calling]; rfl) h_key.symm)
      · dsimp only at h_calling
        rw [h_calling] at h_stage
        rcases h_stage with h_false | ⟨payload, reason, h_eq⟩
        · cases h_false
        · cases h_eq
    have h_result : ∀ result : Dict, withoutError result = buildTaskResult task ownerId outcome →
        ∀ e ∈ s.results, e.task.taskId = task.taskId → withoutError result = e.result := by
      intro result h_result e h_e h_key
      rw [h.unique e h_e _ h_mem h_key]
      exact h_result
    split_ifs
    · -- the callback has succeeded
      have h_rest : Good env (s.setStage i .failing) := h.rest h_f trivial rfl
      have h_sent := h_rest.report h_row h_over .sent (buildTaskResult task ownerId outcome) now
        (some row.executionStatus) (coherent_calledBack CallbackStatus.noConfusion) (fun _ => rfl)
        (h_idle _ (Or.inl rfl)) (h_result _ (withoutError_buildTaskResult task ownerId outcome))
      rw [h_status] at h_sent
      rw [← setStage_setStage _ i .failing]
      have h_f' : (s.setStage i .failing).flights.lookup i =
          some ⟨seq, task, delivered, ownerId, .failing⟩ := by
        show (Table.modify s.flights i _).lookup i = _
        rw [Table.lookup_modify_self, h_f]
        rfl
      refine h_sent.rest h_f' ⟨row.calledBack .sent (buildTaskResult task ownerId outcome) now
        (some (finalStatus outcome.success)), ?_, fun _ => Or.inl rfl⟩ rfl
      show (updateCallbackStatus _ _ _ _ _ s.store).lookup task.taskId = _
      rw [updateCallbackStatus_of_some h_row]
      exact AList.lookup_insert s.store
    · exact h.rest h_f trivial rfl
    · -- it has failed, and its retry is next
      have h_next : Good env (s.setStage i (.retrying
          (compactCallbackPayload env (buildTaskResult task ownerId outcome)) error)) := by
        refine h.setStage h_f ⟨_, h_mem, rfl, rfl⟩ ?_
        intro _ j g h_g h_reports h_key
        exact h.alone i j _ g h_f h_g rfl h_reports h_key.symm
      have h_failed := h_next.report h_row h_over .failed
        (setItem (buildTaskResult task ownerId outcome) "callback_error" (.str error)) now
        (some row.executionStatus)
        (coherent_failed ((h.rows _ row h_row).coherent h_over) h_pending h_over)
        (fun h_sent => absurd (h_pending.symm.trans h_sent) CallbackStatus.noConfusion)
        (h_idle _ (Or.inr ⟨_, _, rfl⟩))
        (h_result _ (withoutError_noted task ownerId outcome (.str error)))
      rw [h_status] at h_failed
      exact h_failed
  next => exact h

theorem good_publishRetry (h : Good env s) (i : ℕ) (outcome : PublishOutcome) :
    Good env (step env s (.publishRetry i outcome)) := by
  unfold step
  dsimp only
  split
  next seq task delivered ownerId payload reason h_f =>
    have h_compacted : Compacted env s task.taskId payload := h.stages i _ h_f
    have h_queued := h.enqueueRetry (r := ⟨task.taskId, task.callback, payload, reason, 0⟩)
      h_compacted fun j g o h_g h_calling h_key => by
        have h_same := h.alone i j _ g h_f h_g rfl (by rw [h_calling]; rfl) h_key.symm
        subst h_same
        cases h_f.symm.trans h_g
        cases h_calling
    cases outcome with
    | stored answered =>
      obtain ⟨row, h_row, -⟩ := h.flights i _ h_f
      have h_found : Reported (s.enqueueRetry ⟨task.taskId, task.callback, payload, reason, 0⟩)
          task.taskId := by
        refine ⟨row, h_row, fun _ => Or.inr (Or.inl ⟨s.nextSeq, ?_⟩)⟩
        exact ⟨_, AList.lookup_insert s.retries, rfl⟩
      exact h_queued.rest h_f h_found rfl
    | raised stored =>
      dsimp only
      split_ifs
      · exact h_queued.rest h_f trivial rfl
      · exact h.rest h_f trivial rfl
  next => exact h

theorem good_ack (h : Good env s) (i : ℕ) (ok : Bool) (h_safe : Safe env s (.ack i ok)) :
    Good env (step env s (.ack i ok)) := by
  unfold step
  dsimp only
  split
  · exact h
  · next f h_f =>
    split_ifs with h_acks h_ok
    · refine (h.acknowledge ?_).dropFlight i
      cases h_eq : f.stage with
      | acking =>
        have h_stage := h.stages i f h_f
        rw [h_eq] at h_stage
        exact h_stage
      | skipping => exact h_safe f h_f h_eq h_ok
      | _ =>
        rw [h_eq] at h_acks
        cases h_acks
    · exact h.rest h_f trivial rfl
    · exact h

theorem good_handle (h : Good env s) (i : ℕ) (published acked : Bool) :
    Good env (step env s (.handle i published acked)) := by
  unfold step
  dsimp only
  split
  next seq task delivered ownerId h_f =>
    have h_logged := h.deadLetter task.taskId
    obtain ⟨row, h_row, -⟩ := h.flights i _ h_f
    split_ifs
    · refine (h_logged.acknowledge ⟨row, h_row, fun _ => ?_⟩).dropFlight i
      exact Or.inr (Or.inr List.mem_cons_self)
    · exact h_logged.dropFlight i
    · exact h.dropFlight i
  next => exact h

theorem Good.noteSent (h : Good env s) {seq : ℕ} {r : Retry}
    (h_r : s.retries.lookup seq = some r) (now : ℤ)
    (h_fits : ∀ e ∈ s.results, e.task.taskId = r.taskId → env.size e.result ≤ env.maxBytes) :
    Good env (s.noteSent r now) ∧ ∃ row, (s.noteSent r now).store.lookup r.taskId = some row ∧
      row.callbackStatus = .sent := by
  obtain ⟨e, h_e, h_key, h_payload⟩ := h.retries seq r h_r
  obtain ⟨row, h_row, h_status, h_over⟩ := h.row_of_result h_e
  rw [h_key] at h_row
  -- the payload still says what the execution was
  have h_final : finalStatus (Value.lookup r.payload "success").truthy = row.executionStatus := by
    rw [h_status, h_payload, lookup_compact _ (by decide)]
    rfl
  have h_sent := h.report h_row h_over .sent r.payload now (some row.executionStatus)
    (coherent_calledBack CallbackStatus.noConfusion) (fun _ => rfl)
    (fun i f o h_f h_eq => ((h.first h_f h_eq).2.2 seq r h_r).symm)
    fun e' h_e' h_key' => by
      rw [h.unique e' h_e' e h_e (h_key'.trans h_key.symm), h_payload]
      exact (withoutError_compact_iff env e.task e.ownerId e.outcome).mpr (h_fits e h_e h_key)
  unfold State.noteSent
  rw [h_final]
  refine ⟨h_sent, row.calledBack .sent r.payload now (some row.executionStatus), ?_, rfl⟩
  rw [updateCallbackStatus_of_some h_row]
  exact AList.lookup_insert s.store

theorem good_retry (h : Good env s) (seq : ℕ) (called written acked published discarded : Bool)
    (now : ℤ) (h_safe : Safe env s (.retry seq called written acked published discarded now)) :
    Good env (step env s (.retry seq called written acked published discarded now)) := by
  unfold step
  dsimp only
  cases h_r : s.retries.lookup seq with
  | none => exact h
  | some r =>
    dsimp only
    have h_noted : Good env (if called && written then s.noteSent r now else s) ∧
        ((called && written) = true → ∃ row,
          (if called && written then s.noteSent r now else s).store.lookup r.taskId = some row ∧
            row.callbackStatus = .sent) ∧
        (if called && written then s.noteSent r now else s).retries = s.retries := by
      split_ifs with h_both
      · rw [Bool.and_eq_true] at h_both
        have h_sent := h.noteSent h_r now fun e h_e h_key =>
          h_safe r h_r h_both.1 h_both.2 e h_e h_key
        exact ⟨h_sent.1, fun _ => h_sent.2, rfl⟩
      · exact ⟨h, fun h_true => absurd h_true h_both, rfl⟩
    generalize (if called && written then s.noteSent r now else s) = s₁ at h_noted ⊢
    obtain ⟨h₁, h_sent, h_retries⟩ := h_noted
    have h_r₁ : s₁.retries.lookup seq = some r := by
      rw [h_retries]
      exact h_r
    have h_counted := h₁.countRetry h_r₁
    have h_r₂ : (s₁.countRetry seq r).retries.lookup seq =
        some { r with delivered := r.delivered + 1 } := AList.lookup_insert s₁.retries
    split_ifs with h_acked
    · rw [Bool.and_eq_true] at h_acked
      exact h_counted.dropRetry h_r₂ (Or.inl (h_sent h_acked.1))
    · exact (h_counted.deadLetter r.taskId).dropRetry h_r₂ (Or.inr List.mem_cons_self)
    · exact h_counted.deadLetter r.taskId
    · exact h_counted

theorem Good.step (h : Good env s) (h_inv : Inv s) {a : Step} (h_safe : Safe env s a) :
    Good env (step env s a) := by
  cases a with
  | request payload taskType uuid instanceId now answered =>
    exact good_request h payload taskType uuid instanceId now answered
  | publish i outcome => exact good_publish h i outcome
  | deliver seq ownerId leaseExpiresAt now raises =>
    exact good_deliver h seq ownerId leaseExpiresAt now raises
  | renew i leaseExpiresAt now => exact good_renew h i leaseExpiresAt now
  | finish i outcome now raises raisesAfter =>
    exact good_finish h h_inv i outcome now raises raisesAfter
  | callback i ok error now raises => exact good_callback h i ok error now raises
  | publishRetry i outcome => exact good_publishRetry h i outcome
  | ack i ok => exact good_ack h i ok h_safe
  | handle i published acked => exact good_handle h i published acked
  | crash i => exact h.dropFlight i
  | retry seq called written acked published discarded now =>
    exact good_retry h seq called written acked published discarded now h_safe

/-! ### The condition is exact -/

theorem safe_ack (i : ℕ) (ok : Bool) (h_law : Law (step env s (.ack i ok))) :
    Safe env s (.ack i ok) := by
  intro f h_f h_stage h_ok
  have h_eq : step env s (.ack i ok) = (s.acknowledge f).dropFlight i := by
    unfold step
    dsimp only
    rw [h_f]
    dsimp only
    rw [if_pos (by rw [h_stage]; rfl), if_pos h_ok]
  rw [h_eq] at h_law
  exact h_law.reported f.task.taskId List.mem_cons_self

theorem step_retry_store {seq : ℕ} {r : Retry} (h_r : s.retries.lookup seq = some r)
    {called written : Bool} (h_called : called = true) (h_written : written = true)
    (acked published discarded : Bool) (now : ℤ) :
    (step env s (.retry seq called written acked published discarded now)).store =
        (s.noteSent r now).store ∧
      (step env s (.retry seq called written acked published discarded now)).results =
        s.results := by
  unfold step
  dsimp only
  rw [h_r]
  dsimp only
  rw [if_pos (show (called && written) = true by rw [h_called, h_written]; rfl)]
  split_ifs <;> exact ⟨rfl, rfl⟩

theorem safe_retry (h : Good env s) (seq : ℕ) (called written acked published discarded : Bool)
    (now : ℤ) (h_law : Law (step env s (.retry seq called written acked published discarded now))) :
    Safe env s (.retry seq called written acked published discarded now) := by
  intro r h_r h_called h_written e h_e h_key
  obtain ⟨e₀, h_e₀, h_key₀, h_payload⟩ := h.retries seq r h_r
  obtain rfl : e = e₀ := h.unique e h_e e₀ h_e₀ (h_key.trans h_key₀.symm)
  obtain ⟨h_store, h_results⟩ :
      (step env s (.retry seq called written acked published discarded now)).store =
          (s.noteSent r now).store ∧
        (step env s (.retry seq called written acked published discarded now)).results =
          s.results :=
    step_retry_store h_r h_called h_written acked published discarded now
  have h_kept := h_law.written e (by rw [h_results]; exact h_e)
  rw [h_store] at h_kept
  obtain ⟨row', h_row', -, h_result⟩ := h_kept
  obtain ⟨row, h_row, -⟩ := h.row_of_result h_e
  rw [h_key] at h_row h_row'
  -- the row holds the payload
  have h_noted : (s.noteSent r now).store.lookup r.taskId = some (row.calledBack .sent r.payload now
      (some (finalStatus (Value.lookup r.payload "success").truthy))) := by
    unfold State.noteSent
    rw [updateCallbackStatus_of_some h_row]
    exact AList.lookup_insert s.store
  cases h_noted.symm.trans h_row'
  have h_same : withoutError r.payload = e.result := h_result
  rw [h_payload] at h_same
  exact (withoutError_compact_iff env e.task e.ownerId e.outcome).mp h_same

theorem law_step_iff (h : Good env s) (h_inv : Inv s) (a : Step) :
    Law (step env s a) ↔ Safe env s a := by
  constructor
  · intro h_law
    cases a with
    | ack i ok => exact safe_ack i ok h_law
    | retry seq called written acked published discarded now =>
      exact safe_retry h seq called written acked published discarded now h_law
    | _ => trivial
  · intro h_safe
    exact (h.step h_inv h_safe).law

end Steps

/-! ### Runs -/

/-- **Callbacks.** Every state satisfies the law exactly if every step is safe. -/
theorem law_iff (env : Env) (as : List Step) :
    Runs.Always (step env) Law {} as ↔
      Runs.Along (step env) (fun s a _ => Safe env s a) {} as := by
  have h_initial : Good env {} := Good.initial
  rw [Runs.always_iff_along_post, and_iff_right h_initial.law]
  apply Runs.along_iff (G := fun _ _ _ => True) (I := fun s => Inv s ∧ Good env s)
  · exact Runs.along_of_step (I := fun _ => True) (fun _ _ _ => ⟨trivial, trivial⟩) trivial as
  · rintro s a ⟨h_inv, h⟩ -
    have h_iff := law_step_iff h h_inv a
    exact ⟨h_iff, fun h_law => ⟨h_inv.step a, h.step h_inv (h_iff.mp h_law)⟩⟩
  · exact ⟨Inv.initial, h_initial⟩

/-! ### A delivery after a crash -/

def roomyEnv : Env where
  str _ := ""
  size _ := 0
  maxBytes := 1024
  maxDeliver := 5

/-- The worker that has written the result of `t` is gone before it calls back, and the message
is delivered again. -/
def crashed : List Step :=
  [.request [("task_id", .str "t"), ("callback", .dict [("subject", .str "done")])] "adhoc" ""
      "default" 0 true,
    .publish 0 (.stored true),
    .deliver 0 "w1" 60 1 false,
    .finish 1 {} 2 false false,
    .crash 1,
    .deliver 0 "w2" 120 61 false,
    .ack 2 true]

/-- **Dropped callback.** The second worker finds the task over and acknowledges its message,
while the callback is pending. -/
theorem law_dropped : ¬Runs.Always (step roomyEnv) Law {} crashed := by
  intro h
  obtain ⟨row, h_row, h_reported⟩ := h.last.reported "t" (by decide)
  have h_pending : ((Runs.run (step roomyEnv) {} crashed).store.lookup "t").map
      (fun row => (row.callback.truthy, row.callbackStatus)) = some (true, .pending) := by
    decide
  rw [h_row] at h_pending
  have h_both : (row.callback.truthy, row.callbackStatus) = (true, .pending) :=
    Option.some.inj h_pending
  rcases h_reported (congrArg Prod.fst h_both) with h_sent | ⟨seq, r, h_r, -⟩ | h_dlq
  · exact absurd (h_sent.symm.trans (congrArg Prod.snd h_both)) (by decide)
  · cases h_r
  · cases h_dlq

end Callbacks
end Ansible
