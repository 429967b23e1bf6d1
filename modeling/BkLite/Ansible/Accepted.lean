import BkLite.Ansible.Worker

/-!
# Accepted tasks

What a client is told when its request is accepted is that the task will run: it is over, or a
message of it is in the work queue. The machine of `BkLite.Ansible.Worker` keeps this (`Kept`)
under all steps but two.

* A request inserts the row before it publishes the message, and a request for a task that has a
  row is answered at once. Between the two, or where the publish has failed, the row is all there
  is.
* At `js_max_deliver` deliveries the message is put into the dead letter queue and acknowledged,
  whatever the row says.
-/

namespace Ansible
namespace Accepted

open Py Worker
open Lease (finalStatus)

def Queued (queue : Table ℕ Message) (k : TaskId) : Prop :=
  ∃ seq msg, queue.lookup seq = some msg ∧ msg.task.taskId = k

def Held (s : State) (k : TaskId) : Prop := Over s.store k ∨ Queued s.queue k

def Kept (s : State) : Prop := ∀ k ∈ s.accepted, Held s k

/-- The two steps that may lose a task find it over or queued. -/
def Safe (env : Env) (s : State) : Step → Prop
  | .request payload _ uuid _ _ answered =>
    answered = true → (s.store.lookup (requestTaskId env payload uuid)).isSome = true →
      Held s (requestTaskId env payload uuid)
  | .handle i published acked =>
    ∀ f, s.flights.lookup i = some f → f.stage = .failing → env.maxDeliver ≤ f.delivered →
      published = true → acked = true → f.task.taskId ∈ s.accepted →
        Over s.store f.task.taskId ∨ Queued (s.queue.erase f.seq) f.task.taskId
  | _ => True

section Steps

variable {env : Env} {s : State}

/-! ### What keeps a task -/

theorem Held.mono {s' : State} {k : TaskId} (h : Held s k)
    (h_over : Over s.store k → Over s'.store k) (h_queue : Queued s.queue k → Queued s'.queue k) :
    Held s' k :=
  h.imp h_over h_queue

theorem Kept.withStore (h : Kept s) {s' : State} (h_step : StoreStep s.store s'.store)
    (h_queue : s'.queue = s.queue) (h_accepted : s'.accepted = s.accepted) : Kept s' := by
  intro k h_k
  rw [h_accepted] at h_k
  refine (h k h_k).mono (fun h_over => h_over.mono h_step) fun h_queued => ?_
  rw [h_queue]
  exact h_queued

theorem Queued.insert {queue : Table ℕ Message} {k : TaskId} {seq : ℕ} {msg : Message}
    (h : Queued queue k)
    (h_same : ∀ msg', queue.lookup seq = some msg' → msg'.task.taskId = msg.task.taskId) :
    Queued (queue.insert seq msg) k := by
  obtain ⟨seq', msg', h_msg', h_k⟩ := h
  by_cases h_seq : seq' = seq
  · subst h_seq
    exact ⟨seq', msg, AList.lookup_insert queue, (h_same msg' h_msg').symm.trans h_k⟩
  · exact ⟨seq', msg', by rw [AList.lookup_insert_ne h_seq, h_msg'], h_k⟩

theorem Queued.erase {queue : Table ℕ Message} {k : TaskId} {seq : ℕ} (h : Queued queue k)
    (h_other : ∀ msg, queue.lookup seq = some msg → msg.task.taskId ≠ k) :
    Queued (queue.erase seq) k := by
  obtain ⟨seq', msg', h_msg', h_k⟩ := h
  refine ⟨seq', msg', ?_, h_k⟩
  rw [Table.lookup_erase, if_neg]
  · exact h_msg'
  · rintro rfl
    exact h_other msg' h_msg' h_k

theorem queued_enqueue (s : State) (task : QueuedTask) :
    Queued (s.enqueue task).queue task.taskId :=
  ⟨s.nextSeq, { task }, AList.lookup_insert s.queue, rfl⟩

theorem Held.enqueue (h_inv : Inv s) {k : TaskId} (h : Held s k) (task : QueuedTask) :
    Held (s.enqueue task) k := by
  refine h.mono id fun h_queued => h_queued.insert fun msg' h_msg' => ?_
  exact absurd (h_inv.below.lt h_msg') (lt_irrefl _)

theorem kept_accept {k : TaskId} {answered : Bool} :
    Kept (s.accept k answered) ↔ Kept s ∧ (answered = true → Held s k) := by
  unfold Kept State.accept
  cases answered with
  | false =>
    constructor
    · intro h
      exact ⟨h, fun h_answered => nomatch h_answered⟩
    · intro h
      exact h.1
  | true =>
    rw [if_pos rfl, List.forall_mem_cons]
    constructor
    · rintro ⟨h_k, h_rest⟩
      exact ⟨h_rest, fun _ => h_k⟩
    · rintro ⟨h_rest, h_k⟩
      exact ⟨h_k rfl, h_rest⟩

theorem kept_acknowledge (h_inv : Inv s) (h : Kept s) {i : ℕ} {f : Flight}
    (h_f : s.flights.lookup i = some f) :
    Kept (s.acknowledge f) ↔
      (f.task.taskId ∈ s.accepted →
        Over s.store f.task.taskId ∨ Queued (s.queue.erase f.seq) f.task.taskId) := by
  constructor
  · intro h_kept h_accepted
    exact h_kept f.task.taskId h_accepted
  · intro h_own k h_k
    by_cases h_task : k = f.task.taskId
    · subst h_task
      exact h_own h_k
    · refine (h k h_k).mono id fun h_queued => h_queued.erase fun msg h_msg h_eq => h_task ?_
      rw [← h_eq, h_inv.task i f h_f msg h_msg]

/-! ### One lemma for each step -/

theorem kept_request (h : Kept s) (h_inv : Inv s) (payload : Dict)
    (taskType uuid instanceId : String) (now : ℤ) (answered : Bool) :
    Kept (step env s (.request payload taskType uuid instanceId now answered)) ↔
      Safe env s (.request payload taskType uuid instanceId now answered) := by
  unfold step Safe
  dsimp only
  have h_id : (requestTask env payload taskType uuid instanceId).taskId =
      requestTaskId env payload uuid := rfl
  rw [h_id]
  cases h_row : s.store.lookup (requestTaskId env payload uuid) with
  | none =>
    refine iff_of_true ?_ fun _ h_some => nomatch h_some
    have h_step := storeStep_createIfAbsent (k := requestTaskId env payload uuid) h_inv.rows
      (setItem payload "task_id" (.str (requestTaskId env payload uuid)))
      (requestTask env payload taskType uuid instanceId).callback now
    rw [createIfAbsent_of_none h_row] at h_step ⊢
    exact h.withStore h_step rfl rfl
  | some row =>
    rw [createIfAbsent_of_some h_row, if_neg Bool.false_ne_true, kept_accept]
    constructor
    · rintro ⟨-, h_held⟩ h_answered -
      exact h_held h_answered
    · intro h_held
      exact ⟨h, fun h_answered => h_held h_answered rfl⟩

theorem kept_publish (h : Kept s) (h_inv : Inv s) (i : ℕ) (outcome : PublishOutcome) :
    Kept (step env s (.publish i outcome)) := by
  unfold step
  dsimp only
  split
  · exact h
  · next task h_task =>
    have h_taken : Inv { s with publishing := s.publishing.eraseIdx i } := h_inv.withLogs ..
    have h_queued : Kept ({ s with publishing := s.publishing.eraseIdx i }.enqueue task) :=
      fun k h_k => Held.enqueue h_taken (h k h_k) task
    cases outcome with
    | stored answered => exact kept_accept.mpr ⟨h_queued, fun _ => Or.inr (queued_enqueue _ task)⟩
    | raised stored =>
      dsimp only
      split_ifs
      · exact h_queued
      · exact h

theorem kept_deliver (h : Kept s) (h_inv : Inv s) (seq : ℕ) (ownerId : Owner)
    (leaseExpiresAt now : ℤ) (raises : Bool) :
    Kept (step env s (.deliver seq ownerId leaseExpiresAt now raises)) := by
  unfold step
  dsimp only
  cases h_msg : s.queue.lookup seq with
  | none => exact h
  | some msg =>
    dsimp only
    -- the message stays
    have h_touched : Kept (s.redeliver seq msg) := by
      intro k h_k
      refine (h k h_k).mono id fun h_queued => h_queued.insert fun msg' h_msg' => ?_
      cases h_msg.symm.trans h_msg'
      rfl
    have h_step := storeStep_claimTask (k := msg.task.taskId) (h_inv.redeliver h_msg).rows ownerId
      leaseExpiresAt now
    split_ifs
    · exact h_touched
    · exact h_touched
    · split
      next h_claim =>
        rw [h_claim] at h_step
        exact h_touched.withStore h_step rfl rfl
      all_goals exact h_touched

theorem kept_finish (h : Kept s) (h_inv : Inv s) (i : ℕ) (outcome : RunOutcome) (now : ℤ)
    (raises raisesAfter : Bool) : Kept (step env s (.finish i outcome now raises raisesAfter)) := by
  unfold step
  dsimp only
  split
  next seq task delivered ownerId h_flight =>
    have h_step := storeStep_updateExecutionResult (k := task.taskId) h_inv.rows outcome.success
      (buildTaskResult task ownerId outcome) now ownerId
    by_cases h_fails : (raises || !(updateExecutionResult task.taskId (finalStatus outcome.success)
        (buildTaskResult task ownerId outcome) now (some ownerId) s.store).1) = true
    · rw [if_pos h_fails]
      exact h
    · rw [if_neg h_fails]
      rw [Bool.not_eq_true, Bool.or_eq_false_iff, Bool.not_eq_false'] at h_fails
      split_ifs
      · exact h.withStore h_step rfl rfl
      · exact h.withStore h_step rfl rfl
      · have h_noted := storeStep_updateCallbackStatus h_step.rows
          (over_updateExecutionResult h_fails.2) .none (buildTaskResult task ownerId outcome) now
          (some (finalStatus outcome.success))
        exact h.withStore ⟨h_noted.rows, h_step.evolves.trans h_noted.evolves fun _ _ _ => .trans⟩
          rfl rfl
  next => exact h

theorem kept_callback (h : Kept s) (h_inv : Inv s) (i : ℕ) (ok : Bool) (error : String) (now : ℤ)
    (raises : Bool) : Kept (step env s (.callback i ok error now raises)) := by
  unfold step
  dsimp only
  split
  next seq task delivered ownerId outcome h_flight =>
    have h_over : Over s.store task.taskId := h_inv.past i _ h_flight rfl
    split_ifs
    · exact h.withStore (storeStep_updateCallbackStatus h_inv.rows h_over _ _ _ _) rfl rfl
    · exact h
    · exact h.withStore (storeStep_updateCallbackStatus h_inv.rows h_over _ _ _ _) rfl rfl
  next => exact h

theorem kept_publishRetry (h : Kept s) (i : ℕ) (outcome : PublishOutcome) :
    Kept (step env s (.publishRetry i outcome)) := by
  unfold step
  dsimp only
  split
  next =>
    cases outcome with
    | stored answered => exact h
    | raised stored =>
      dsimp only
      split_ifs
      · exact h
      · exact h
  next => exact h

theorem kept_ack (h : Kept s) (h_inv : Inv s) (i : ℕ) (ok : Bool) :
    Kept (step env s (.ack i ok)) := by
  unfold step
  dsimp only
  split
  · exact h
  · next f h_f =>
    split_ifs with h_acks h_ok
    · -- a message is acknowledged so only when its task is over
      have h_over := h_inv.past i f h_f (Stage.isPast_of_acks h_acks)
      exact (kept_acknowledge h_inv h h_f).mpr fun _ => Or.inl h_over
    · exact h
    · exact h

theorem kept_handle (h : Kept s) (h_inv : Inv s) (i : ℕ) (published acked : Bool) :
    Kept (step env s (.handle i published acked)) ↔ Safe env s (.handle i published acked) := by
  unfold step Safe
  dsimp only
  split
  next seq task delivered ownerId h_f =>
    have h_logged : Kept (s.deadLetter task.taskId) := h
    split_ifs with h_dead h_acked
    · have h_iff := kept_acknowledge (h_inv.deadLetter task.taskId) h_logged h_f
      constructor
      · intro h_kept f h_f' _ _ _ _ h_accepted
        cases h_f.symm.trans h_f'
        exact h_iff.mp h_kept h_accepted
      · intro h_safe
        exact h_iff.mpr fun h_accepted =>
          h_safe _ h_f rfl h_dead.1 h_dead.2 h_acked h_accepted
    · exact iff_of_true h_logged fun _ _ _ _ _ h_ack => absurd h_ack h_acked
    · refine iff_of_true h fun f h_f' _ h_delivered h_published => ?_
      cases h_f.symm.trans h_f'
      exact absurd ⟨h_delivered, h_published⟩ h_dead
  next h_none =>
    refine iff_of_true h fun f h_f h_stage => ?_
    obtain ⟨seq, task, delivered, ownerId, stage⟩ := f
    cases h_stage
    exact absurd h_f (h_none seq task delivered ownerId)

theorem kept_retry (h : Kept s) (h_inv : Inv s) (seq : ℕ)
    (called written acked published discarded : Bool) (now : ℤ) :
    Kept (step env s (.retry seq called written acked published discarded now)) := by
  unfold step
  dsimp only
  cases h_r : s.retries.lookup seq with
  | none => exact h
  | some r =>
    dsimp only
    have h_over : Over s.store r.taskId := h_inv.retries seq r h_r
    have h_noted : Kept (if called && written then s.noteSent r now else s) := by
      split_ifs
      · exact h.withStore (storeStep_updateCallbackStatus h_inv.rows h_over _ _ _ _) rfl rfl
      · exact h
    generalize (if called && written then s.noteSent r now else s) = s₁ at h_noted ⊢
    split_ifs
    all_goals exact h_noted

/-- **One step.** Every step keeps the accepted tasks, but for the two that `Safe` is about, and
these exactly if they are safe. -/
theorem kept_step (h_inv : Inv s) (h : Kept s) (a : Step) : Kept (step env s a) ↔ Safe env s a := by
  cases a with
  | request payload taskType uuid instanceId now answered =>
    exact kept_request h h_inv payload taskType uuid instanceId now answered
  | handle i published acked => exact kept_handle h h_inv i published acked
  | publish i outcome => exact iff_of_true (kept_publish h h_inv i outcome) trivial
  | deliver seq ownerId leaseExpiresAt now raises =>
    exact iff_of_true (kept_deliver h h_inv seq ownerId leaseExpiresAt now raises) trivial
  | renew i leaseExpiresAt now =>
    refine iff_of_true ?_ trivial
    unfold step
    dsimp only
    split
    · exact h
    · exact h.withStore (storeStep_renewLease h_inv.rows _ leaseExpiresAt now) rfl rfl
  | finish i outcome now raises raisesAfter =>
    exact iff_of_true (kept_finish h h_inv i outcome now raises raisesAfter) trivial
  | callback i ok error now raises =>
    exact iff_of_true (kept_callback h h_inv i ok error now raises) trivial
  | publishRetry i outcome => exact iff_of_true (kept_publishRetry h i outcome) trivial
  | ack i ok => exact iff_of_true (kept_ack h h_inv i ok) trivial
  | crash i => exact iff_of_true h trivial
  | retry seq called written acked published discarded now =>
    exact iff_of_true (kept_retry h h_inv seq called written acked published discarded now) trivial

end Steps

/-! ### Runs -/

/-- **Accepted tasks.** They are over or queued exactly if no duplicate is answered and no message
dead-lettered while they are neither. -/
theorem kept_iff (env : Env) (as : List Step) :
    Runs.Always (step env) Kept {} as ↔
      Runs.Along (step env) (fun s a _ => Safe env s a) {} as := by
  have h_keep : ∀ s a, Worker.Inv s → Worker.Inv (step env s a) := fun s a h_inv => h_inv.step a
  have h_step : ∀ s a, True → Worker.Inv s → Kept s → (Kept (step env s a) ↔ Safe env s a) :=
    fun s a _ h_inv h_kept => kept_step h_inv h_kept a
  refine Runs.always_iff_along h_keep h_step (fun _ _ => trivial) Inv.initial ?_
  intro k h_k
  exact absurd h_k List.not_mem_nil

/-! ### A request that is made again -/

def plainEnv : Env where
  str _ := ""
  size _ := 0
  maxBytes := 1024
  maxDeliver := 5

/-- A request for the task `t`. -/
def request (now : ℤ) : Step := .request [("task_id", .str "t")] "adhoc" "" "default" now true

/-- **Lost task.** The publish of a request fails; its client asks again, and is told that the
task is accepted. -/
theorem kept_lost :
    ¬Runs.Always (step plainEnv) Kept {}
      [request 0, .publish 0 (.raised false), request 1] := by
  intro h
  have h_held := h.last "t" (by decide)
  rcases h_held with ⟨row, h_row, h_over⟩ | ⟨seq, msg, h_msg, -⟩
  · have h_queued : (((Runs.run (step plainEnv) {} [request 0, .publish 0 (.raised false),
        request 1]).store.lookup "t").map (·.executionStatus)) = some .queued := by
      decide
    rw [h_row] at h_queued
    have h_status : row.executionStatus = .queued := Option.some.inj h_queued
    rw [h_status] at h_over
    cases h_over
  · cases h_msg

end Accepted
end Ansible
