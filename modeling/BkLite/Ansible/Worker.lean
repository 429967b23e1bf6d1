import BkLite.Ansible.Lease

/-!
# Requests, workers and the callback retry loop

`service/nats_service.py` of the agent. A request inserts a row and publishes a message; a worker
that gets the message claims the task, runs it, writes the result, calls back and acknowledges the
message; a callback that failed goes to a second queue, whose loop tries again.

A worker's way through one delivery is a `Flight`. Between two of its steps other parties may
step, and at every call it may fail: `fail`ing stages lead to the handler of `_worker_loop`, and a
flight may also vanish (`crash`). The queues are JetStream's: a published message stays until it
is acknowledged, and may be delivered any number of times.

What the state records beside the tables and queues (`accepted`, `acked`, `results`, `dlq`) is
what the claims about runs speak of; no step reads it.
-/

namespace Ansible
namespace Worker

open Py Lease

/-! ### Messages -/

structure QueuedTask where
  taskId : TaskId
  taskType : String
  payload : Dict
  callback : Value
  instanceId : String := ""

structure Message where
  task : QueuedTask
  delivered : ℕ := 0

structure Retry where
  taskId : TaskId
  callback : Value
  payload : Dict
  reason : String
  delivered : ℕ := 0

structure Env where
  /-- `str` of a value that is no text. -/
  str : Value → String
  /-- `_callback_request_size_bytes`. -/
  size : Dict → ℕ
  /-- What `_prepare_callback_payload` takes for `max_bytes`. -/
  maxBytes : ℕ
  /-- `js_max_deliver`. -/
  maxDeliver : ℕ

/-! ### Results -/

structure RunOutcome where
  code : ℤ := 0
  output : String := ""
  /-- The results of the hosts, as the output is parsed. -/
  parsed : List Value := []
  truncated : Bool := false
  bytesTotal : ℤ := 0
  bytesRetained : ℤ := 0
  maxBytes : ℤ := 0
  error : String := ""
  startedAt : String := ""
  finishedAt : String := ""

/-- `success` of `_build_task_result`. -/
def RunOutcome.success (o : RunOutcome) : Bool := o.code = 0 && o.error = ""

def buildTaskResult (task : QueuedTask) (ownerId : Owner) (o : RunOutcome) : Dict :=
  let error :=
    if o.success = false ∧ o.error = "" then
      "ansible " ++ task.taskType ++ " failed with exit code " ++ toString o.code
    else o.error
  [("task_id", .str task.taskId),
    ("task_type", .str task.taskType),
    ("status", .str (if o.success then "success" else "failed")),
    ("success", .bool o.success),
    ("result", if o.parsed = [] then .str o.output else .list o.parsed),
    ("result_summary", .dict
      [("stdout_combined", .str o.output),
        ("host_count", .int o.parsed.length),
        ("output_truncated", .bool o.truncated),
        ("output_bytes_total", .int o.bytesTotal),
        ("output_bytes_retained", .int o.bytesRetained),
        ("output_max_bytes", .int o.maxBytes)]),
    ("output_truncated", .bool o.truncated),
    ("error", .str error),
    ("started_at", .str o.startedAt),
    ("finished_at", .str o.finishedAt),
    ("owner_id", .str ownerId)]

/-! ### Compaction -/

def mapItem (d : Dict) (key : String) (f : Value → Value) : Dict :=
  d.map fun e => if e.1 = key then (e.1, f e.2) else e

def callbackResultTextMaxChars : ℕ := 8 * 1024

def truncateCallbackText : Value → Value
  | .str s =>
    if s.toList.length ≤ callbackResultTextMaxChars then .str s
    else .str (String.ofList (s.toList.take callbackResultTextMaxChars) ++
      "\n...[truncated for callback]")
  | v => v

/-- `get(key, "")`. -/
def getText (d : Dict) (key : String) : Value :=
  ((d.find? (·.1 = key)).map (·.2)).getD (.str "")

def hostTextFields : List String := ["stdout", "stderr", "error_message"]

def mapHosts (f : Value → Value) : Value → Value
  | .list items => .list (items.map fun
    | .dict item => .dict (hostTextFields.foldl (fun d k => setItem d k (f (getText d k))) item)
    | v => v)
  | v => v

def dropCombined : Value → Value
  | .dict summary =>
    .dict (setItem (summary.filter (·.1 ≠ "stdout_combined")) "callback_payload_truncated"
      (.bool true))
  | v => v

def shortenTexts (d : Dict) : Dict :=
  let d := mapItem d "result" fun
    | .str s => truncateCallbackText (.str s)
    | v => mapHosts truncateCallbackText v
  setItem d "error" (truncateCallbackText (getText d "error"))

def summaryKeys : List String :=
  ["host_count", "output_truncated", "output_bytes_total", "output_bytes_retained",
    "output_max_bytes", "callback_payload_truncated"]

def dropTexts (d : Dict) : Dict :=
  let d := mapItem d "result" fun
    | .str _ => .str ""
    | v => mapHosts (fun _ => .str "") v
  let d := mapItem d "result_summary" fun
    | .dict summary => .dict (summaryKeys.filterMap fun key => summary.find? (·.1 = key))
    | v => v
  setItem d "callback_payload_truncated" (.bool true)

def compactCallbackPayload (env : Env) (payload : Dict) : Dict :=
  if env.size payload ≤ env.maxBytes then payload
  else
    let dropped := mapItem payload "result_summary" dropCombined
    if env.size dropped ≤ env.maxBytes then dropped
    else
      let shortened := shortenTexts dropped
      if env.size shortened ≤ env.maxBytes then shortened else dropTexts shortened

/-! ### The machine -/

inductive Stage
  /-- The task is claimed and runs. -/
  | running
  /-- The result is written, and the callback is under way. -/
  | calling (outcome : RunOutcome)
  /-- The callback has failed, and the retry is about to be published. -/
  | retrying (callbackPayload : Dict) (reason : String)
  /-- The task is reported on, and its message is about to be acknowledged. -/
  | acking
  /-- The task was found over, and the message is about to be acknowledged. -/
  | skipping
  /-- An exception is about to be handled. -/
  | failing

def Stage.acks : Stage → Bool
  | .acking | .skipping => true
  | _ => false

structure Flight where
  seq : ℕ
  task : QueuedTask
  delivered : ℕ
  ownerId : Owner
  stage : Stage

structure Persisted where
  task : QueuedTask
  ownerId : Owner
  outcome : RunOutcome

def Persisted.result (e : Persisted) : Dict := buildTaskResult e.task e.ownerId e.outcome

structure State where
  store : TaskStore := ∅
  /-- Requests whose row is inserted and whose message is not published yet. -/
  publishing : List QueuedTask := []
  queue : Table ℕ Message := ∅
  retries : Table ℕ Retry := ∅
  nextSeq : ℕ := 0
  flights : Table ℕ Flight := ∅
  /-- The tasks that were answered accepted. -/
  accepted : List TaskId := []
  /-- The tasks a message of which was acknowledged. -/
  acked : List TaskId := []
  /-- The results that were written. -/
  results : List Persisted := []
  /-- The tasks with an entry in the dead letter queue. -/
  dlq : List TaskId := []

inductive PublishOutcome
  /-- The message is stored, and the answer was sent or not. -/
  | stored (answered : Bool)
  /-- An exception, which leaves open whether the message is stored. -/
  | raised (stored : Bool)
deriving DecidableEq

inductive Step
  /-- A request comes in; a duplicate is answered. -/
  | request (payload : Dict) (taskType uuid instanceId : String) (now : ℤ) (answered : Bool)
  | publish (i : ℕ) (outcome : PublishOutcome)
  /-- A worker gets a message. -/
  | deliver (seq : ℕ) (ownerId : Owner) (leaseExpiresAt now : ℤ) (raises : Bool)
  | renew (i : ℕ) (leaseExpiresAt now : ℤ)
  /-- The task has run. The write of the result may raise, and so may the one after it. -/
  | finish (i : ℕ) (outcome : RunOutcome) (now : ℤ) (raises raisesAfter : Bool)
  /-- The callback has succeeded or not; the note of a failure may raise. -/
  | callback (i : ℕ) (ok : Bool) (error : String) (now : ℤ) (raises : Bool)
  | publishRetry (i : ℕ) (outcome : PublishOutcome)
  | ack (i : ℕ) (ok : Bool)
  /-- The exception handler: the entry of the dead letter queue and the acknowledgement may
  fail. -/
  | handle (i : ℕ) (published acked : Bool)
  | crash (i : ℕ)
  /-- The retry loop gets a message; each of its calls may fail. -/
  | retry (seq : ℕ) (called written acked published discarded : Bool) (now : ℤ)

def requestTaskId (env : Env) (payload : Dict) (uuid : String) : TaskId :=
  let given := match getText payload "task_id" with
    | .str s => s
    | v => env.str v
  let stripped := String.ofList (strip given.toList)
  if stripped = "" then uuid else stripped

def requestTask (env : Env) (payload : Dict) (taskType uuid instanceId : String) : QueuedTask where
  taskId := requestTaskId env payload uuid
  taskType := taskType
  payload := sanitizePayloadForStorage
    (setItem payload "task_id" (.str (requestTaskId env payload uuid)))
  callback := (Value.lookup payload "callback").orElse (.dict [])
  instanceId := instanceId

namespace State

def enqueue (s : State) (task : QueuedTask) : State :=
  { s with queue := s.queue.insert s.nextSeq { task }, nextSeq := s.nextSeq + 1 }

def redeliver (s : State) (seq : ℕ) (msg : Message) : State :=
  { s with queue := s.queue.insert seq { msg with delivered := msg.delivered + 1 } }

def accept (s : State) (k : TaskId) (answered : Bool) : State :=
  { s with accepted := if answered then k :: s.accepted else s.accepted }

def enqueueRetry (s : State) (retry : Retry) : State :=
  { s with retries := s.retries.insert s.nextSeq retry, nextSeq := s.nextSeq + 1 }

def addFlight (s : State) (f : Flight) : State :=
  { s with flights := s.flights.insert s.nextSeq f, nextSeq := s.nextSeq + 1 }

def setStage (s : State) (i : ℕ) (stage : Stage) : State :=
  { s with flights := Table.modify s.flights i fun f => { f with stage } }

def dropFlight (s : State) (i : ℕ) : State := { s with flights := s.flights.erase i }

def noteSent (s : State) (r : Retry) (now : ℤ) : State :=
  { s with
    store := updateCallbackStatus r.taskId .sent r.payload now
      (some (finalStatus (Value.lookup r.payload "success").truthy)) s.store }

def countRetry (s : State) (seq : ℕ) (r : Retry) : State :=
  { s with retries := s.retries.insert seq { r with delivered := r.delivered + 1 } }

def dropRetry (s : State) (seq : ℕ) : State := { s with retries := s.retries.erase seq }

def deadLetter (s : State) (k : TaskId) : State := { s with dlq := k :: s.dlq }

def acknowledge (s : State) (f : Flight) : State :=
  { s with queue := s.queue.erase f.seq, acked := f.task.taskId :: s.acked }

end State

section Machine

variable (env : Env)

def step (s : State) : Step → State
  | .request payload taskType uuid instanceId now answered =>
    let task := requestTask env payload taskType uuid instanceId
    let created := createIfAbsent task.taskId .queued
      (setItem payload "task_id" (.str task.taskId)) task.callback now s.store
    if created.1 then { s with store := created.2, publishing := s.publishing ++ [task] }
    else s.accept task.taskId answered
  | .publish i outcome =>
    match s.publishing[i]? with
    | none => s
    | some task =>
      let s := { s with publishing := s.publishing.eraseIdx i }
      match outcome with
      | .stored answered => (s.enqueue task).accept task.taskId answered
      | .raised stored => if stored then s.enqueue task else s
  | .deliver seq ownerId leaseExpiresAt now raises =>
    match s.queue.lookup seq with
    | none => s
    | some msg =>
      let s := s.redeliver seq msg
      let flight := fun stage : Stage => Flight.mk seq msg.task (msg.delivered + 1) ownerId stage
      -- also where one of the answers below fails to be sent
      if raises then s.addFlight (flight .failing)
      else if (getStatus msg.task.taskId s.store).any (·.isTerminal) then
        s.addFlight (flight .skipping)
      else
        match claimTask msg.task.taskId ownerId leaseExpiresAt now s.store with
        | (.claimed .., store) => { s with store }.addFlight (flight .running)
        | (.terminal .., _) => s.addFlight (flight .skipping)
        -- `in_progress` and `nak` leave the message where it is
        | (.leased .., _) => s
        | (.missing, _) => s
  | .renew i leaseExpiresAt now =>
    match s.flights.lookup i with
    | none => s
    | some f =>
      { s with store := (renewLease f.task.taskId f.ownerId leaseExpiresAt now s.store).2 }
  | .finish i outcome now raises raisesAfter =>
    match s.flights.lookup i with
    | some ⟨_, task, _, ownerId, .running⟩ =>
      let result := buildTaskResult task ownerId outcome
      let status := finalStatus outcome.success
      let update := updateExecutionResult task.taskId status result now (some ownerId) s.store
      if raises || !update.1 then s.setStage i .failing
      else
        let s := { s with
          store := update.2
          results := ⟨task, ownerId, outcome⟩ :: s.results }
        if task.callback.truthy then s.setStage i (.calling outcome)
        else if raisesAfter then s.setStage i .failing
        else
          let store := updateCallbackStatus task.taskId .none result now (some status) s.store
          { s with store }.setStage i .acking
    | _ => s
  | .callback i ok error now raises =>
    match s.flights.lookup i with
    | some ⟨_, task, _, ownerId, .calling outcome⟩ =>
      let result := buildTaskResult task ownerId outcome
      let status := finalStatus outcome.success
      if ok then
        let store := updateCallbackStatus task.taskId .sent result now (some status) s.store
        { s with store }.setStage i .acking
      else if raises then s.setStage i .failing
      else
        let noted := setItem result "callback_error" (.str error)
        let store := updateCallbackStatus task.taskId .failed noted now (some status) s.store
        { s with store }.setStage i (.retrying (compactCallbackPayload env result) error)
    | _ => s
  | .publishRetry i outcome =>
    match s.flights.lookup i with
    | some ⟨_, task, _, _, .retrying payload reason⟩ =>
      let retry := { taskId := task.taskId, callback := task.callback, payload, reason }
      match outcome with
      | .stored _ => (s.enqueueRetry retry).setStage i .acking
      | .raised stored => (if stored then s.enqueueRetry retry else s).setStage i .failing
    | _ => s
  | .ack i ok =>
    match s.flights.lookup i with
    | none => s
    | some f =>
      if f.stage.acks then
        if ok then (s.acknowledge f).dropFlight i else s.setStage i .failing
      else s
  | .handle i published acked =>
    match s.flights.lookup i with
    | some ⟨seq, task, delivered, ownerId, .failing⟩ =>
      if env.maxDeliver ≤ delivered ∧ published then
        let s := s.deadLetter task.taskId
        if acked then (s.acknowledge ⟨seq, task, delivered, ownerId, .failing⟩).dropFlight i
        else s.dropFlight i
      else s.dropFlight i
    | _ => s
  | .crash i => s.dropFlight i
  | .retry seq called written acked published discarded now =>
    match s.retries.lookup seq with
    | none => s
    | some r =>
      let s := if called && written then s.noteSent r now else s
      let s := s.countRetry seq r
      if called && written && acked then s.dropRetry seq
      else if env.maxDeliver ≤ r.delivered + 1 ∧ published then
        let s := s.deadLetter r.taskId
        if discarded then s.dropRetry seq else s
      else s

end Machine

/-! ### The store over a run -/

def Over (store : TaskStore) (k : TaskId) : Prop :=
  ∃ row, store.lookup k = some row ∧ row.executionStatus.isTerminal = true

/-- What is so in every row: what looks over is over, and what is leased runs. -/
structure RowInv (row : TaskRow) : Prop where
  ended : row.status.isTerminal = true → row.executionStatus.isTerminal = true
  leased : ∀ owner, row.leaseOwner = some owner → row.executionStatus = .running

/-- What no operation takes back. -/
structure RowStep (row row' : TaskRow) : Prop where
  ended : row.executionStatus.isTerminal = true → row'.executionStatus = row.executionStatus
  callback : row'.callback = row.callback

theorem RowStep.refl (row : TaskRow) : RowStep row row := ⟨fun _ => rfl, rfl⟩

theorem RowStep.trans {row row' row'' : TaskRow} (h : RowStep row row') (h' : RowStep row' row'') :
    RowStep row row'' := by
  refine ⟨fun h_over => ?_, h'.callback.trans h.callback⟩
  have h_same := h.ended h_over
  exact (h'.ended (h_same.symm ▸ h_over)).trans h_same

/-- An operation on the store. -/
structure StoreStep (store store' : TaskStore) : Prop where
  rows : ∀ k row, store'.lookup k = some row → RowInv row
  evolves : Table.Evolves RowStep store store'

section Stores

variable {store : TaskStore} {k : TaskId}

theorem Over.mono {store' : TaskStore} (h : Over store k) (h_step : StoreStep store store') :
    Over store' k := by
  obtain ⟨row, h_row, h_over⟩ := h
  obtain ⟨row', h_row', h_evolved⟩ := h_step.evolves k row h_row
  refine ⟨row', h_row', ?_⟩
  rw [h_evolved.ended h_over]
  exact h_over

theorem StoreStep.refl (h : ∀ k row, store.lookup k = some row → RowInv row) :
    StoreStep store store := ⟨h, .refl RowStep.refl store⟩

theorem StoreStep.insert (h : ∀ k row, store.lookup k = some row → RowInv row) {row : TaskRow}
    (h_row : RowInv row) (h_old : ∀ row₀, store.lookup k = some row₀ → RowStep row₀ row) :
    StoreStep store (store.insert k row) := by
  refine ⟨fun k' row' h_lookup => ?_, Table.evolves_insert RowStep.refl h_old⟩
  rw [Table.lookup_insert] at h_lookup
  split_ifs at h_lookup with h_key
  · cases h_lookup
    exact h_row
  · exact h k' row' h_lookup

theorem over_of_status (h : ∀ k row, store.lookup k = some row → RowInv row) {row : TaskRow}
    (h_row : store.lookup k = some row)
    (h_over : (row.status.isTerminal || row.executionStatus.isTerminal) = true) :
    Over store k := by
  refine ⟨row, h_row, ?_⟩
  rcases Bool.or_eq_true_iff.mp h_over with h_status | h_exec
  · exact (h k row h_row).ended h_status
  · exact h_exec

theorem storeStep_createIfAbsent (h : ∀ k row, store.lookup k = some row → RowInv row)
    (payload : Dict) (callback : Value) (now : ℤ) :
    StoreStep store (createIfAbsent k .queued payload callback now store).2 := by
  cases h_lookup : store.lookup k with
  | some row =>
    rw [createIfAbsent_of_some h_lookup]
    exact .refl h
  | none =>
    rw [createIfAbsent_of_none h_lookup]
    refine .insert h ⟨fun h_over => ?_, fun owner h_owner => ?_⟩ fun row₀ h_row₀ => ?_
    · cases h_over
    · cases h_owner
    · cases h_lookup.symm.trans h_row₀

theorem storeStep_claimTask (h : ∀ k row, store.lookup k = some row → RowInv row)
    (ownerId : Owner) (leaseExpiresAt now : ℤ) :
    StoreStep store (claimTask k ownerId leaseExpiresAt now store).2 := by
  rcases claimTask_cases k ownerId leaseExpiresAt now store with
    ⟨-, h_same⟩ | ⟨row, h_row, -, h_open, -, h_eq⟩
  · rw [h_same]
    exact .refl h
  · rw [h_eq]
    refine .insert h ⟨fun h_over => ?_, fun owner _ => rfl⟩ fun row₀ h_row₀ => ?_
    · cases h_over
    · cases h_row.symm.trans h_row₀
      -- a claim is granted only for a task that is not over
      refine ⟨fun h_over => ?_, rfl⟩
      rw [h_open] at h_over
      cases h_over

theorem storeStep_renewLease (h : ∀ k row, store.lookup k = some row → RowInv row)
    (ownerId : Owner) (leaseExpiresAt now : ℤ) :
    StoreStep store (renewLease k ownerId leaseExpiresAt now store).2 := by
  rcases renewLease_cases k ownerId leaseExpiresAt now store with
    h_refused | ⟨row, h_row, h_owner, h_running, h_eq⟩
  · rw [h_refused]
    exact .refl h
  · rw [h_eq]
    refine .insert h ⟨(h k row h_row).ended, (h k row h_row).leased⟩ fun row₀ h_row₀ => ?_
    cases h_row.symm.trans h_row₀
    exact ⟨fun _ => rfl, rfl⟩

theorem storeStep_updateExecutionResult (h : ∀ k row, store.lookup k = some row → RowInv row)
    (success : Bool) (result : Dict) (now : ℤ) (ownerId : Owner) :
    StoreStep store
      (updateExecutionResult k (finalStatus success) result now (some ownerId) store).2 := by
  rcases updateExecutionResult_cases k (finalStatus success) result now ownerId store with
    h_refused | ⟨row, h_row, h_owner, h_eq⟩
  · rw [h_refused]
    exact .refl h
  · rw [h_eq]
    refine .insert h ⟨fun _ => finalStatus_isTerminal success, fun owner h_none => nomatch h_none⟩
      fun row₀ h_row₀ => ?_
    cases h_row.symm.trans h_row₀
    refine ⟨fun h_over => ?_, rfl⟩
    rw [(h k row h_row).leased ownerId h_owner] at h_over
    cases h_over

theorem over_updateExecutionResult {success : Bool} {result : Dict} {now : ℤ} {ownerId : Owner}
    (h : (updateExecutionResult k (finalStatus success) result now (some ownerId) store).1 = true) :
    Over (updateExecutionResult k (finalStatus success) result now (some ownerId) store).2 k := by
  rcases updateExecutionResult_cases k (finalStatus success) result now ownerId store with
    h_refused | ⟨row, h_row, h_owner, h_eq⟩
  · rw [h_refused] at h
    cases h
  · rw [h_eq]
    exact ⟨_, AList.lookup_insert store, finalStatus_isTerminal success⟩

theorem storeStep_updateCallbackStatus (h : ∀ k row, store.lookup k = some row → RowInv row)
    (h_over : Over store k) (callbackStatus : CallbackStatus) (result : Dict) (now : ℤ)
    (preserveStatus : Option ExecutionStatus) :
    StoreStep store (updateCallbackStatus k callbackStatus result now preserveStatus store) := by
  obtain ⟨row, h_row, h_terminal⟩ := h_over
  rw [updateCallbackStatus_of_some h_row]
  refine .insert h ⟨fun _ => h_terminal, (h k row h_row).leased⟩ fun row₀ h_row₀ => ?_
  cases h_row.symm.trans h_row₀
  exact ⟨fun _ => rfl, rfl⟩

end Stores

/-! ### Invariant -/

/-- The result of the flight's task is written, or its message is to be acknowledged as that of a
task that is over. -/
def Stage.isPast : Stage → Bool
  | .running | .failing => false
  | .calling _ | .retrying _ _ | .acking | .skipping => true

theorem Stage.isPast_of_acks : ∀ {stage : Stage}, stage.acks = true → stage.isPast = true
  | .acking, _ | .skipping, _ => rfl

/-- What every reachable state satisfies. -/
structure Inv (s : State) : Prop where
  below : Table.Below s.queue s.nextSeq
  rows : ∀ k row, s.store.lookup k = some row → RowInv row
  seq : ∀ i f, s.flights.lookup i = some f → f.seq < s.nextSeq
  /-- A flight is about the task of its message. -/
  task : ∀ i f, s.flights.lookup i = some f →
    ∀ msg, s.queue.lookup f.seq = some msg → msg.task = f.task
  past : ∀ i f, s.flights.lookup i = some f → f.stage.isPast = true → Over s.store f.task.taskId
  retries : ∀ seq r, s.retries.lookup seq = some r → Over s.store r.taskId

section Inv

variable {env : Env} {s : State}

theorem lookup_setStage {i j : ℕ} {stage : Stage} {f : Flight}
    (h : (s.setStage i stage).flights.lookup j = some f) :
    ∃ f₀, s.flights.lookup j = some f₀ ∧
      (i ≠ j ∧ f = f₀ ∨ i = j ∧ f = { f₀ with stage }) := by
  obtain ⟨f₀, h_f₀, h_eq⟩ := Table.lookup_modify_eq_some h
  refine ⟨f₀, h_f₀, ?_⟩
  split_ifs at h_eq with h_key
  · exact Or.inr ⟨h_key.symm, h_eq⟩
  · exact Or.inl ⟨Ne.symm h_key, h_eq⟩

theorem Inv.initial : Inv {} where
  below _ _ := rfl
  rows _ _ h := nomatch h
  seq _ _ h := nomatch h
  task _ _ h := nomatch h
  past _ _ h := nomatch h
  retries _ _ h := nomatch h

theorem Inv.withStore (h : Inv s) {store : TaskStore} (h_step : StoreStep s.store store) :
    Inv { s with store } where
  below := h.below
  rows := h_step.rows
  seq := h.seq
  task := h.task
  past i f h_f h_past := (h.past i f h_f h_past).mono h_step
  retries seq r h_r := (h.retries seq r h_r).mono h_step

theorem Inv.setStage (h : Inv s) {i : ℕ} {stage : Stage}
    (h_past : stage.isPast = true → ∀ f, s.flights.lookup i = some f →
      Over s.store f.task.taskId) : Inv (s.setStage i stage) where
  below := h.below
  rows := h.rows
  seq j f h_f := by
    obtain ⟨f₀, h_f₀, ⟨-, rfl⟩ | ⟨-, rfl⟩⟩ := lookup_setStage h_f
    · exact h.seq j f h_f₀
    · exact h.seq j f₀ h_f₀
  task j f h_f := by
    obtain ⟨f₀, h_f₀, ⟨-, rfl⟩ | ⟨-, rfl⟩⟩ := lookup_setStage h_f
    · exact h.task j f h_f₀
    · exact h.task j f₀ h_f₀
  past j f h_f h_stage := by
    obtain ⟨f₀, h_f₀, ⟨-, rfl⟩ | ⟨rfl, rfl⟩⟩ := lookup_setStage h_f
    · exact h.past j f h_f₀ h_stage
    · exact h_past h_stage f₀ h_f₀
  retries := h.retries

theorem Inv.dropFlight (h : Inv s) (i : ℕ) : Inv (s.dropFlight i) where
  below := h.below
  rows := h.rows
  seq j f h_f := h.seq j f (Table.lookup_of_erase h_f).2
  task j f h_f := h.task j f (Table.lookup_of_erase h_f).2
  past j f h_f := h.past j f (Table.lookup_of_erase h_f).2
  retries := h.retries

theorem lookup_addFlight {i : ℕ} {f f' : Flight} (h : (s.addFlight f).flights.lookup i = some f') :
    f' = f ∨ s.flights.lookup i = some f' := by
  change (s.flights.insert s.nextSeq f).lookup i = some f' at h
  rw [Table.lookup_insert] at h
  split_ifs at h
  · exact Or.inl (Option.some.inj h).symm
  · exact Or.inr h

theorem Inv.addFlight (h : Inv s) {f : Flight} (h_seq : f.seq < s.nextSeq)
    (h_task : ∀ msg, s.queue.lookup f.seq = some msg → msg.task = f.task)
    (h_past : f.stage.isPast = true → Over s.store f.task.taskId) :
    Inv (s.addFlight f) where
  below := h.below.mono (Nat.le_succ _)
  rows := h.rows
  seq i f' h_f := by
    rcases lookup_addFlight h_f with rfl | h_old
    · exact Nat.lt_succ_of_lt h_seq
    · exact Nat.lt_succ_of_lt (h.seq i f' h_old)
  task i f' h_f := by
    rcases lookup_addFlight h_f with rfl | h_old
    · exact h_task
    · exact h.task i f' h_old
  past i f' h_f := by
    rcases lookup_addFlight h_f with rfl | h_old
    · exact h_past
    · exact h.past i f' h_old
  retries := h.retries

theorem Inv.redeliver (h : Inv s) {seq : ℕ} {msg : Message}
    (h_msg : s.queue.lookup seq = some msg) : Inv (s.redeliver seq msg) where
  below := h.below.insert (h.below.lt h_msg)
  rows := h.rows
  seq := h.seq
  task i f h_f msg' h_msg' := by
    rw [State.redeliver, Table.lookup_insert] at h_msg'
    split_ifs at h_msg' with h_key
    · cases h_msg'
      exact h.task i f h_f msg (h_key ▸ h_msg)
    · exact h.task i f h_f msg' h_msg'
  past := h.past
  retries := h.retries

theorem Inv.enqueue (h : Inv s) (task : QueuedTask) : Inv (s.enqueue task) where
  below := (h.below.mono (Nat.le_succ _)).insert (Nat.lt_succ_self _)
  rows := h.rows
  seq i f h_f := Nat.lt_succ_of_lt (h.seq i f h_f)
  task i f h_f msg h_msg := by
    -- the new number is that of no flight
    rw [State.enqueue, AList.lookup_insert_ne (Nat.ne_of_lt (h.seq i f h_f))] at h_msg
    exact h.task i f h_f msg h_msg
  past := h.past
  retries := h.retries

theorem Inv.withLogs (h : Inv s) (publishing : List QueuedTask) (accepted acked dlq : List TaskId)
    (results : List Persisted) :
    Inv { s with publishing, accepted, acked, dlq, results } where
  below := h.below
  rows := h.rows
  seq := h.seq
  task := h.task
  past := h.past
  retries := h.retries

theorem Inv.accept (h : Inv s) (k : TaskId) (answered : Bool) : Inv (s.accept k answered) :=
  h.withLogs ..

theorem Inv.deadLetter (h : Inv s) (k : TaskId) : Inv (s.deadLetter k) := h.withLogs ..

theorem Inv.withRetries (h : Inv s) {retries : Table ℕ Retry} {nextSeq : ℕ}
    (h_le : s.nextSeq ≤ nextSeq)
    (h_retries : ∀ seq r, retries.lookup seq = some r → Over s.store r.taskId) :
    Inv { s with retries, nextSeq } where
  below := h.below.mono h_le
  rows := h.rows
  seq i f h_f := Nat.lt_of_lt_of_le (h.seq i f h_f) h_le
  task := h.task
  past := h.past
  retries := h_retries

theorem lookup_insert_retry {retries : Table ℕ Retry} {P : Retry → Prop} {seq : ℕ} {r : Retry}
    (h : ∀ seq r, retries.lookup seq = some r → P r) (h_r : P r) :
    ∀ seq' r', (retries.insert seq r).lookup seq' = some r' → P r' := by
  intro seq' r' h_r'
  rw [Table.lookup_insert] at h_r'
  split_ifs at h_r'
  · cases h_r'
    exact h_r
  · exact h seq' r' h_r'

theorem Inv.enqueueRetry (h : Inv s) {r : Retry} (h_over : Over s.store r.taskId) :
    Inv (s.enqueueRetry r) :=
  h.withRetries (Nat.le_succ _) (lookup_insert_retry h.retries h_over)

theorem Inv.countRetry (h : Inv s) {seq : ℕ} {r : Retry} (h_over : Over s.store r.taskId) :
    Inv (s.countRetry seq r) :=
  h.withRetries le_rfl (lookup_insert_retry h.retries h_over)

theorem Inv.dropRetry (h : Inv s) (seq : ℕ) : Inv (s.dropRetry seq) :=
  h.withRetries le_rfl fun seq' r h_r => h.retries seq' r (Table.lookup_of_erase h_r).2

theorem Inv.noteSent (h : Inv s) {r : Retry} (h_over : Over s.store r.taskId) (now : ℤ) :
    Inv (s.noteSent r now) :=
  h.withStore (storeStep_updateCallbackStatus h.rows h_over _ _ _ _)

theorem Inv.acknowledge (h : Inv s) (f : Flight) : Inv (s.acknowledge f) where
  below := h.below.erase f.seq
  rows := h.rows
  seq := h.seq
  task i f' h_f msg h_msg := h.task i f' h_f msg (Table.lookup_of_erase h_msg).2
  past := h.past
  retries := h.retries

/-! ### One lemma for each step -/

theorem Inv.request (h : Inv s) (payload : Dict) (taskType uuid instanceId : String) (now : ℤ)
    (answered : Bool) :
    Inv (step env s (.request payload taskType uuid instanceId now answered)) := by
  unfold step
  dsimp only
  split_ifs
  · exact (h.withStore (storeStep_createIfAbsent h.rows _ _ now)).withLogs ..
  · exact h.accept _ answered

theorem Inv.publish (h : Inv s) (i : ℕ) (outcome : PublishOutcome) :
    Inv (step env s (.publish i outcome)) := by
  unfold step
  dsimp only
  split
  · exact h
  · next task h_task =>
    have h_taken : Inv { s with publishing := s.publishing.eraseIdx i } := h.withLogs ..
    cases outcome with
    | stored answered => exact (h_taken.enqueue task).accept _ _
    | raised stored =>
      dsimp only
      split_ifs
      · exact h_taken.enqueue task
      · exact h_taken

theorem Inv.deliver (h : Inv s) (seq : ℕ) (ownerId : Owner) (leaseExpiresAt now : ℤ)
    (raises : Bool) : Inv (step env s (.deliver seq ownerId leaseExpiresAt now raises)) := by
  unfold step
  dsimp only
  cases h_msg : s.queue.lookup seq with
  | none => exact h
  | some msg =>
    dsimp only
    have h_touched := h.redeliver h_msg
    have h_seq : seq < s.nextSeq := h.below.lt h_msg
    have h_task : ∀ msg', (s.redeliver seq msg).queue.lookup seq = some msg' →
        msg'.task = msg.task := by
      intro msg' h_msg'
      rw [State.redeliver, AList.lookup_insert] at h_msg'
      cases h_msg'
      rfl
    split_ifs with h_raises h_terminal
    · exact h_touched.addFlight h_seq h_task fun h_past => nomatch h_past
    · refine h_touched.addFlight h_seq h_task fun _ => ?_
      obtain ⟨status, h_status, h_over⟩ := (Option.any_eq_true _ _).mp h_terminal
      obtain ⟨row, h_row, rfl⟩ := Option.map_eq_some_iff.mp h_status
      exact over_of_status h.rows h_row (Bool.or_eq_true_iff.mpr (Or.inl h_over))
    · have h_step := storeStep_claimTask (k := msg.task.taskId) h_touched.rows ownerId
        leaseExpiresAt now
      split
      next h_claim =>
        rw [h_claim] at h_step
        exact (h_touched.withStore h_step).addFlight h_seq h_task fun h_past => nomatch h_past
      next h_claim =>
        obtain ⟨row, h_row, h_over⟩ := claimTask_terminal h_claim
        exact h_touched.addFlight h_seq h_task fun _ => over_of_status h.rows h_row h_over
      next => exact h_touched
      next => exact h_touched

theorem Inv.finish (h : Inv s) (i : ℕ) (outcome : RunOutcome) (now : ℤ)
    (raises raisesAfter : Bool) : Inv (step env s (.finish i outcome now raises raisesAfter)) := by
  unfold step
  dsimp only
  split
  next seq task delivered ownerId h_flight =>
    by_cases h_fails : (raises || !(updateExecutionResult task.taskId (finalStatus outcome.success)
        (buildTaskResult task ownerId outcome) now (some ownerId) s.store).1) = true
    · rw [if_pos h_fails]
      exact h.setStage fun h_past => nomatch h_past
    · rw [if_neg h_fails]
      rw [Bool.not_eq_true, Bool.or_eq_false_iff, Bool.not_eq_false'] at h_fails
      have h_step := storeStep_updateExecutionResult (k := task.taskId) h.rows outcome.success
        (buildTaskResult task ownerId outcome) now ownerId
      have h_over := over_updateExecutionResult h_fails.2
      have h_written := (h.withStore h_step).withLogs s.publishing s.accepted s.acked s.dlq
        (⟨task, ownerId, outcome⟩ :: s.results)
      split_ifs with h_callback h_after
      · refine h_written.setStage fun _ f h_f => ?_
        cases h_flight.symm.trans h_f
        exact h_over
      · exact h_written.setStage fun h_past => nomatch h_past
      · have h_noted := storeStep_updateCallbackStatus h_written.rows h_over .none
          (buildTaskResult task ownerId outcome) now (some (finalStatus outcome.success))
        refine (h_written.withStore h_noted).setStage fun _ f h_f => ?_
        cases h_flight.symm.trans h_f
        exact h_over.mono h_noted
  next => exact h

theorem Inv.callback (h : Inv s) (i : ℕ) (ok : Bool) (error : String) (now : ℤ)
    (raises : Bool) : Inv (step env s (.callback i ok error now raises)) := by
  unfold step
  dsimp only
  split
  next seq task delivered ownerId outcome h_flight =>
    have h_over : Over s.store task.taskId := h.past i _ h_flight rfl
    split_ifs
    · have h_noted := storeStep_updateCallbackStatus h.rows h_over .sent
        (buildTaskResult task ownerId outcome) now (some (finalStatus outcome.success))
      refine (h.withStore h_noted).setStage fun _ f h_f => ?_
      cases h_flight.symm.trans h_f
      exact h_over.mono h_noted
    · exact h.setStage fun h_past => nomatch h_past
    · have h_noted := storeStep_updateCallbackStatus h.rows h_over .failed
        (setItem (buildTaskResult task ownerId outcome) "callback_error" (.str error)) now
        (some (finalStatus outcome.success))
      refine (h.withStore h_noted).setStage fun _ f h_f => ?_
      cases h_flight.symm.trans h_f
      exact h_over.mono h_noted
  next => exact h

theorem Inv.publishRetry (h : Inv s) (i : ℕ) (outcome : PublishOutcome) :
    Inv (step env s (.publishRetry i outcome)) := by
  unfold step
  dsimp only
  split
  next seq task delivered ownerId payload reason h_flight =>
    have h_over : Over s.store task.taskId := h.past i _ h_flight rfl
    cases outcome with
    | stored answered =>
      refine (h.enqueueRetry h_over).setStage fun _ f h_f => ?_
      cases h_flight.symm.trans h_f
      exact h_over
    | raised stored =>
      dsimp only
      split_ifs
      · exact (h.enqueueRetry h_over).setStage fun h_past => nomatch h_past
      · exact h.setStage fun h_past => nomatch h_past
  next => exact h

theorem Inv.ack (h : Inv s) (i : ℕ) (ok : Bool) : Inv (step env s (.ack i ok)) := by
  unfold step
  dsimp only
  split
  · exact h
  · split_ifs
    · exact (h.acknowledge _).dropFlight i
    · exact h.setStage fun h_past => nomatch h_past
    · exact h

theorem Inv.handle (h : Inv s) (i : ℕ) (published acked : Bool) :
    Inv (step env s (.handle i published acked)) := by
  unfold step
  dsimp only
  split
  next seq task delivered ownerId h_flight =>
    split_ifs
    · exact ((h.deadLetter _).acknowledge _).dropFlight i
    · exact (h.deadLetter _).dropFlight i
    · exact h.dropFlight i
  next => exact h

theorem Inv.retry (h : Inv s) (seq : ℕ) (called written acked published discarded : Bool)
    (now : ℤ) : Inv (step env s (.retry seq called written acked published discarded now)) := by
  unfold step
  dsimp only
  cases h_r : s.retries.lookup seq with
  | none => exact h
  | some r =>
    dsimp only
    have h_over : Over s.store r.taskId := h.retries seq r h_r
    have h_noted : Inv (if called && written then s.noteSent r now else s) ∧
        Over (if called && written then s.noteSent r now else s).store r.taskId := by
      split_ifs
      · exact ⟨h.noteSent h_over now,
          h_over.mono (storeStep_updateCallbackStatus h.rows h_over _ _ _ _)⟩
      · exact ⟨h, h_over⟩
    generalize (if called && written then s.noteSent r now else s) = s₁ at h_noted ⊢
    have h_counted : Inv (s₁.countRetry seq r) := h_noted.1.countRetry h_noted.2
    split_ifs
    · exact h_counted.dropRetry seq
    · exact (h_counted.deadLetter _).dropRetry seq
    · exact h_counted.deadLetter _
    · exact h_counted

theorem Inv.step (h : Inv s) (a : Step) : Inv (step env s a) := by
  cases a with
  | request payload taskType uuid instanceId now answered =>
    exact h.request payload taskType uuid instanceId now answered
  | publish i outcome => exact h.publish i outcome
  | deliver seq ownerId leaseExpiresAt now raises =>
    exact h.deliver seq ownerId leaseExpiresAt now raises
  | renew i leaseExpiresAt now =>
    unfold Worker.step
    dsimp only
    split
    · exact h
    · exact h.withStore (storeStep_renewLease h.rows _ leaseExpiresAt now)
  | finish i outcome now raises raisesAfter => exact h.finish i outcome now raises raisesAfter
  | callback i ok error now raises => exact h.callback i ok error now raises
  | publishRetry i outcome => exact h.publishRetry i outcome
  | ack i ok => exact h.ack i ok
  | handle i published acked => exact h.handle i published acked
  | crash i => exact h.dropFlight i
  | retry seq called written acked published discarded now =>
    exact h.retry seq called written acked published discarded now

/-- What is called back about, tried again or acknowledged as reported is over. -/
def Concluded (s : State) : Prop :=
  (∀ i f, s.flights.lookup i = some f → f.stage.isPast = true → Over s.store f.task.taskId) ∧
    ∀ seq r, s.retries.lookup seq = some r → Over s.store r.taskId

/-- **No early word of a task**, in every run, with any redeliveries, failures and crashes. -/
theorem always_concluded (env : Env) (as : List Step) :
    Runs.Always (Worker.step env) Concluded {} as := by
  intro pre _
  have h_inv : Inv (Runs.run (Worker.step env) {} pre) :=
    Runs.run_invariant (fun _ a h => h.step a) Inv.initial pre
  exact ⟨h_inv.past, h_inv.retries⟩

end Inv

end Worker
end Ansible
